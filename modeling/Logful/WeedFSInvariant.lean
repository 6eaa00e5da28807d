import Logful.WeedFSObjects

/-!
What every step of the service preserves, as long as records are written once and a success names
the file that it answers.

For each object and for each entry of the map it is known which record it stands for; a document
keeps its record; and whatever a request or a response names is the file of a record.
-/

namespace Logful.WeedFSInvariant

open Logful.Documents Logful.Entity Logful.Paths Logful.Runs Logful.StringUtil
open Logful.WeedFSClientService Logful.WeedFSObjects Logful.WeedFSSteps

/-! ### What is asked of callers and of the file store -/

/-- A record as the server makes them: its file goes by one name, whose base name is the
key. -/
structure WellFormed (m : WeedFSMeta) : Prop where
  getName : getName m.filename = m.filename
  key : m.key = some (getBaseName m.filename)
  status : m.status = .STATE_NORMAL
  fileMeta : m.fileMeta.isSome

/-- A key without separators, with an extension without separators and dots. -/
lemma wellFormed_create {key extension : String} (fileMeta : FileMeta)
    (hk : ∀ ch ∈ key.toList, isSeparator ch = false)
    (he : ∀ ch ∈ extension.toList, isSeparator ch = false ∧ ch ≠ '.') :
    WellFormed (.create (some key) (some extension) fileMeta) where
  getName := by
    have hnames : (file (key ++ "." ++ extension)).names = [key ++ "." ++ extension] := by
      refine file_names_of_noSlash (by simp) ?_
      simp only [String.toList_append, List.mem_append, not_or]
      refine ⟨⟨fun h => ?_, by decide⟩, fun h => ?_⟩
      · exact absurd (hk _ h) (by decide)
      · exact absurd (he _ h).1 (by decide)
    simp [WeedFSMeta.filename, WeedFSMeta.create, valueOf, getName, hnames]
  key := by
    have hbase := getBaseName_join hk he
    simpa [WeedFSMeta.filename, WeedFSMeta.create, valueOf] using hbase.symm
  status := rfl
  fileMeta := rfl

/-- Records are written once under each key, and with success a file is answered by its
name. -/
def Expected (s : State) : Event → Prop
  | .write m => WellFormed m ∧ ∀ n ∈ s.history.written, n.key ≠ m.key
  | e => NamesFile s e

instance (m : WeedFSMeta) : Decidable (WellFormed m) :=
  decidable_of_iff (getName m.filename = m.filename ∧ m.key = some (getBaseName m.filename) ∧
    m.status = .STATE_NORMAL ∧ m.fileMeta.isSome)
    ⟨fun ⟨hname, hkey, hstatus, hmeta⟩ => ⟨hname, hkey, hstatus, hmeta⟩,
      fun h => ⟨h.getName, h.key, h.status, h.fileMeta⟩⟩

instance (s : State) : ∀ e, Decidable (Expected s e)
  | .write _ => inferInstanceAs (Decidable (_ ∧ _))
  | .retryPutQueue | .caller _ _ | .channelActive => inferInstanceAs (Decidable True)
  | .on i action => inferInstanceAs (Decidable (NamesFile s (.on i action)))

/-- The records that were left in the queue by an earlier process. -/
structure Backlog where
  records : Collection ObjectId WeedFSMeta
  wellFormed : ∀ d ∈ records.docs, d.body.status = .STATE_NORMAL → WellFormed d.body
  distinct : ∀ d ∈ records.docs, ∀ e ∈ records.docs, d.body.status = .STATE_NORMAL →
    e.body.status = .STATE_NORMAL → d.body.key = e.body.key → d.body = e.body

/-! ### The invariant -/

/-- If the object has an id, it is that of a document with its key. -/
def Addressed (c : Collection ObjectId WeedFSMeta) (e : Item) : Prop :=
  ∀ i ∈ e.id, ∃ d ∈ c.docs, d.id = i ∧ d.body.key = e.body.key

/-- An object for a record that was written. -/
def Known (s : State) (e : Item) : Prop :=
  e.body ∈ s.history.written ∧ Addressed s.queueRepository e

/-- The entry has the metadata of the record, but for the fid and the size. -/
def Agrees (entry : Item) (m : WeedFSMeta) : Prop :=
  ∃ f g, entry.body.fileMeta = some f ∧ m.fileMeta = some g ∧
    ∀ fid size, setFid fid size f = setFid fid size g

/-- The metadata of the record was saved, with the fid and the size of a response to its file. -/
def Saved (s : State) (m : WeedFSMeta) : Prop :=
  ∃ fid size f, m.fileMeta = some f ∧ (m.filename, setFid fid size f) ∈ s.history.saved

structure Inv (s : State) : Prop where
  wellFormed : ∀ m ∈ s.history.written, WellFormed m
  distinct : ∀ m ∈ s.history.written, ∀ n ∈ s.history.written, m.key = n.key → m = n
  records : ∀ d ∈ s.queueRepository.docs, d.body.status = .STATE_NORMAL →
    d.body ∈ s.history.written
  objects : ∀ e, Object s e → Known s e
  entries : ∀ key, ∀ entry ∈ s.weedMetaMap key,
    ∃ m ∈ s.history.written, m.key = some key ∧ (Agrees entry m ∨ Saved s m)
  named : ∀ filename, Named s filename → ∃ m ∈ s.history.written, m.filename = filename
  responses : ∀ e ∈ s.readQueue, e.id = none
  given : ∀ m ∈ s.history.given, m ∈ s.history.written

variable {s t : State} {capacity : ℕ} {m n : WeedFSMeta}

/-- Records are the same when their files go by the same name. -/
lemma Inv.eq_of_filename (hs : Inv s) (hm : m ∈ s.history.written) (hn : n ∈ s.history.written)
    (h : m.filename = n.filename) : m = n :=
  hs.distinct m hm n hn (by rw [(hs.wellFormed m hm).key, (hs.wellFormed n hn).key, h])

/-- A file that is named and has the key of a record is the file of that record. -/
lemma Inv.eq_of_named (hs : Inv s) (hm : m ∈ s.history.written) {filename : String}
    (hnamed : Named s filename) (hbase : m.key = some (getBaseName filename)) :
    m.filename = filename := by
  obtain ⟨n, hn, rfl⟩ := hs.named filename hnamed
  rw [hs.distinct m hm n hn (hbase.trans (hs.wellFormed n hn).key.symm)]

lemma setFid_setFid (fid fid' : String) (size size' : ℤ) (f : FileMeta) :
    setFid fid size (setFid fid' size' f) = setFid fid size f := by
  cases f <;> rfl

/-! ### Saving a record -/

section Save

variable {c : Collection ObjectId WeedFSMeta} {e : Item}

lemma Addressed.key_eq (he : Addressed c e) {d : Document ObjectId WeedFSMeta}
    (hd : d ∈ c.docs) (hid : d.id = c.idFor e) : d.body.key = e.body.key := by
  cases hi : e.id with
  | none =>
    rw [Collection.idFor, hi, Option.getD_none] at hid
    exact absurd (List.mem_map.mpr ⟨d, hd, hid⟩) (Supply.fresh_notMem c.ids)
  | some i =>
    obtain ⟨d', hd', hid', hkey⟩ := he i hi
    rw [Collection.idFor, hi, Option.getD_some] at hid
    rw [List.inj_on_of_nodup_map c.nodup hd hd' (hid.trans hid'.symm), hkey]

/-- Every document is still there under its id and its key. -/
lemma Addressed.documents (he : Addressed c e) {d : Document ObjectId WeedFSMeta}
    (hd : d ∈ c.docs) : ∃ d' ∈ (c.save e).docs, d'.id = d.id ∧ d'.body.key = d.body.key := by
  by_cases hid : d.id = c.idFor e
  · exact ⟨_, Collection.mem_save.mpr (.inl rfl), hid.symm, (he.key_eq hd hid).symm⟩
  · exact ⟨d, Collection.mem_save.mpr (.inr ⟨hd, hid⟩), rfl, rfl⟩

end Save

/-- No document is given up, and each keeps its key. -/
lemma documents_stores {records : Collection ObjectId WeedFSMeta}
    (hobjects : ∀ e, Object s e → Addressed s.queueRepository e) (h : Stores s records)
    {d : Document ObjectId WeedFSMeta} (hd : d ∈ s.queueRepository.docs) :
    ∃ d' ∈ records.docs, d'.id = d.id ∧ d'.body.key = d.body.key := by
  cases h with
  | same => exact ⟨d, hd, rfl, rfl⟩
  | saved x hx => exact (hobjects x hx).documents hd
  | deleted x hx =>
    have haddressed : Addressed s.queueRepository
        { x with body := { x.body with status := .STATE_DELETED } } := hobjects x hx
    exact haddressed.documents hd

/-! ### The entries of the map -/

/-- An entry behind the handling of a response, which names the file of a record. -/
lemma entries_handle {fault : Option Fault} {response : Item} {queue : List Item} (hs : Inv s)
    (hqueue : s.readQueue = response :: queue) :
    let t := handle fault response { s with readQueue := queue }
    ∀ key, ∀ entry ∈ t.weedMetaMap key,
      ∃ m ∈ s.history.written, m.key = some key ∧ (Agrees entry m ∨ Saved t m) := by
  intro t key entry hentry
  have hmem : response ∈ s.readQueue := by rw [hqueue]; exact List.mem_cons_self
  have hid := hs.responses response hmem
  have hold : ∀ e ∈ s.weedMetaMap key, s.history.saved ⊆ t.history.saved →
      ∃ m ∈ s.history.written, m.key = some key ∧ (Agrees e m ∨ Saved t m) := by
    intro e he hsaved
    obtain ⟨m, hm, hkey, h⟩ := hs.entries key e he
    refine ⟨m, hm, hkey, h.imp_right ?_⟩
    rintro ⟨fid, size, f, hf, hin⟩
    exact ⟨fid, size, f, hf, hsaved hin⟩
  by_cases hrep : ∃ filename, Reports response.body.responseObject filename
  · obtain ⟨filename, hrep⟩ := hrep
    have hnamed : Named s filename := .answered response hmem hrep
    obtain ⟨fid, size, url, hobject⟩ := hrep
    have hmove := handled_of_handle fault hid hobject { s with readQueue := queue }
    by_cases hkey : key = getBaseName filename
    · subst hkey
      change Handled fault fid filename size _ t at hmove
      generalize t = t at hmove hentry hold ⊢
      cases hmove with
      | absent h =>
        simp only at hentry
        rw [h] at hentry
        cases hentry
      | empty e h hmeta | ended e f notices h hmeta =>
        simp only [Function.update_self] at hentry
        cases hentry
      | unsaved e f h hmeta =>
        simp only [Function.update_self, Option.mem_some_iff] at hentry
        obtain ⟨m, hm, hkey, hagrees | hsaved⟩ := hold e h (List.Subset.refl _)
        · obtain ⟨f', g, hf', hg, heq⟩ := hagrees
          rw [hmeta] at hf'
          cases hf'
          refine ⟨m, hm, hkey, .inl ⟨setFid fid size f, g, ?_, hg, fun fid' size' => ?_⟩⟩
          · rw [← hentry]
            rfl
          · rw [setFid_setFid, heq]
        · exact ⟨m, hm, hkey, .inr hsaved⟩
      | stopped e f withId h hmeta =>
        obtain ⟨m, hm, hkey, hagrees | hsaved⟩ := hold e h (List.subset_append_left _ _)
        · obtain ⟨f', g, hf', hg, heq⟩ := hagrees
          rw [hmeta] at hf'
          cases hf'
          have hname := hs.eq_of_named hm hnamed hkey
          refine ⟨m, hm, hkey, .inr ⟨fid, size, g, hg, ?_⟩⟩
          rw [hname, ← heq]
          exact List.mem_append_right _ (List.mem_singleton.mpr rfl)
        · exact ⟨m, hm, hkey, .inr hsaved⟩
    · have hsame : t.weedMetaMap key = s.weedMetaMap key :=
        weedMetaMap_handle fault hid (fun f hf h => hkey (by
          rw [← h, hf.filename_eq ⟨fid, size, url, hobject⟩])) { s with readQueue := queue }
      have hsaved : s.history.saved ⊆ t.history.saved := by
        change Handled fault fid filename size _ t at hmove
        generalize t = t at hmove ⊢
        cases hmove with
        | absent | empty | unsaved => exact List.Subset.refl _
        | stopped | ended => exact List.subset_append_left _ _
      exact hold entry (hsame ▸ hentry) hsaved
  · have hsame : t = { s with readQueue := queue } := handle_silent fault hrep _
    rw [hsame] at hentry hold ⊢
    exact hold entry hentry (List.Subset.refl _)

/-- An entry that a caller puts into the map is the object of a record. -/
lemma entries_step {e : Event} (hs : Inv s) (h : step capacity s e = some t) (key : String) :
    ∀ entry ∈ t.weedMetaMap key,
      ∃ m ∈ s.history.written, m.key = some key ∧ (Agrees entry m ∨ Saved t m) := by
  intro entry hentry
  cases touches_step h with
  | leaves hmap _ _ hsaved =>
    rw [hmap] at hentry
    simp only [Saved, hsaved]
    exact hs.entries key entry hentry
  | handled _ _ _ _ _ _ hqueue => exact entries_handle hs hqueue key entry hentry
  | caller hi hmove =>
    cases hmove with
    | mapped x list k hk =>
      by_cases hkey : key = k
      · subst hkey
        simp only [Function.update_self, Option.mem_some_iff] at hentry
        subst hentry
        have hx := (hs.objects x (.called _ (List.mem_of_getElem? hi) List.mem_cons_self)).1
        obtain ⟨f, hf⟩ := Option.isSome_iff_exists.mp (hs.wellFormed _ hx).fileMeta
        exact ⟨x.body, hx, hk, .inl ⟨f, f, hf, hf, fun _ _ => rfl⟩⟩
      · simp only [Function.update_of_ne hkey] at hentry
        exact hs.entries key entry hentry
    | looked | found | begun | decided | queued | keyless | deleted | saved | unsaved =>
      exact hs.entries key entry hentry

/-! ### Every step, and every run -/

lemma Expected.namesFile {e : Event} (he : Expected s e) : NamesFile s e := by
  cases e with
  | write m => trivial
  | retryPutQueue | caller | channelActive | on => exact he

/-- A caller begins a call of `write` for the record, whose file is there. -/
def Begins (s : State) (m : WeedFSMeta) : Event → Prop
  | .caller i _ => (∃ d ∈ s.callers[i]?, d.point = .connected ∧
      ∃ e ∈ d.weedFSMetaList.head?, e.body = m) ∧ (s.disk m.filename).isSome
  | _ => False

/-- What is given to `write` is noted when the call begins. -/
lemma given_step {e : Event} (hids : ∀ x ∈ s.readQueue, x.id = none)
    (h : step capacity s e = some t) (hm : m ∈ t.history.given) :
    m ∈ s.history.given ∨ Begins s m e := by
  cases e with
  | write m =>
    cases h
    exact .inl hm
  | retryPutQueue =>
    cases h
    exact .inl hm
  | caller i saveFails =>
    obtain ⟨d, u, d', hi, hmove, rfl⟩ := caller_eq h
    cases hmove with
    | begun x list given hgiven =>
      rcases (hgiven m).mp hm with hm | ⟨rfl, hdisk⟩
      · exact .inl hm
      · exact .inr ⟨⟨_, hi, rfl, x, rfl, rfl⟩, hdisk⟩
    | looked | found | decided | queued | mapped | keyless | deleted | saved | unsaved =>
      exact .inl hm
  | channelActive =>
    obtain rfl := channelActive_eq h
    exact .inl hm
  | on i action =>
    obtain ⟨c, u, c', hi, hact, rfl⟩ := on_eq h
    have hgiven := (acts_act hids hact).1.given
    exact .inl (hgiven ▸ hm)

lemma Begins.object {e : Event} (h : Begins s m e) : ∃ x, Object s x ∧ x.body = m := by
  cases e with
  | caller i saveFails =>
    obtain ⟨⟨d, hd, -, x, hx, rfl⟩, -⟩ := h
    exact ⟨x, .called d (List.mem_of_getElem? hd) (List.mem_of_mem_head? hx), rfl⟩
  | write | retryPutQueue | channelActive | on => exact h.elim

/-- **Every step keeps the invariant.** -/
theorem inv_step {e : Event} (hs : Inv s) (he : Expected s e)
    (h : step capacity s e = some t) : Inv t := by
  have hids := hs.responses
  have hstores := stores_step hids h
  have hwritten := written_step hids h
  have hgrows : s.history.written ⊆ t.history.written := by
    rcases hwritten with ⟨m, -, heq⟩ | heq
    · exact heq ▸ List.subset_append_left _ _
    · exact heq ▸ List.Subset.refl _
  have hknown : ∀ x, Known s x → Known t x := by
    refine fun x hx => ⟨hgrows hx.1, fun i hi => ?_⟩
    obtain ⟨d, hd, hid, hkey⟩ := hx.2 i hi
    obtain ⟨d', hd', hid', hkey'⟩ := documents_stores (fun e he => (hs.objects e he).2) hstores hd
    exact ⟨d', hd', hid'.trans hid, hkey'.trans hkey⟩
  constructor
  case wellFormed =>
    rcases hwritten with ⟨m, rfl, heq⟩ | heq
    · rw [heq]
      intro n hn
      rcases List.mem_append.mp hn with hn | hn
      · exact hs.wellFormed n hn
      · rw [List.mem_singleton.mp hn]
        exact he.1
    · rw [heq]
      exact hs.wellFormed
  case distinct =>
    rcases hwritten with ⟨m, rfl, heq⟩ | heq
    · rw [heq]
      intro n hn k hk hkey
      rcases List.mem_append.mp hn with hn | hn <;> rcases List.mem_append.mp hk with hk | hk
      · exact hs.distinct n hn k hk hkey
      · rw [List.mem_singleton.mp hk] at hkey
        exact absurd hkey (he.2 n hn)
      · rw [List.mem_singleton.mp hn] at hkey
        exact absurd hkey.symm (he.2 k hk)
      · rw [List.mem_singleton.mp hn, List.mem_singleton.mp hk]
    · rw [heq]
      exact hs.distinct
  case records =>
    intro d hd hnormal
    refine hgrows ?_
    generalize t.queueRepository = records at hstores hd
    cases hstores with
    | same => exact hs.records d hd hnormal
    | saved x hx =>
      rcases Collection.mem_save.mp hd with rfl | ⟨hd, -⟩
      · exact (hs.objects x hx).1
      · exact hs.records d hd hnormal
    | deleted x hx hdisk =>
      rcases Collection.mem_save.mp hd with rfl | ⟨hd, -⟩
      · cases hnormal
      · exact hs.records d hd hnormal
  case objects =>
    intro x hx
    rcases object_step hids h hx with hx | ⟨m, rfl, rfl⟩ | ⟨doc, hdoc, hnormal, rfl, -⟩
    · exact hknown x (hs.objects x hx)
    · refine ⟨?_, fun i hi => nomatch hi⟩
      cases h
      exact List.mem_append_right _ (List.mem_singleton.mpr rfl)
    · refine hknown _ ⟨hs.records doc hdoc hnormal, fun i hi => ⟨doc, hdoc, ?_, rfl⟩⟩
      simpa using hi
  case entries =>
    intro key entry hentry
    obtain ⟨m, hm, hkey, h'⟩ := entries_step hs h key entry hentry
    exact ⟨m, hgrows hm, hkey, h'⟩
  case named =>
    intro filename hnamed
    rcases named_step hids he.namesFile.namesNoOther h hnamed with hnamed | ⟨c, hc, x, hx, rfl⟩
    · obtain ⟨m, hm, hname⟩ := hs.named filename hnamed
      exact ⟨m, hgrows hm, hname⟩
    · have hm := (hs.objects x (.inHand c hc hx)).1
      exact ⟨x.body, hgrows hm, (hs.wellFormed _ hm).getName.symm⟩
  case responses => exact ids_step hids h
  case given =>
    intro m hm
    refine hgrows ?_
    rcases given_step hids h hm with hm | hbegins
    · exact hs.given m hm
    · obtain ⟨x, hx, rfl⟩ := hbegins.object
      exact (hs.objects x hx).1

lemma inv_start (b : Backlog) (repositories : Repositories) (disk : Disk) :
    Inv (start b.records repositories disk) := by
  have hmem : ∀ m ∈ (start b.records repositories disk).history.written,
      ∃ d ∈ b.records.docs, d.body = m ∧ m.status = .STATE_NORMAL := by
    intro m hm
    obtain ⟨hm, hstatus⟩ := List.mem_filter.mp hm
    obtain ⟨d, hd, rfl⟩ := List.mem_map.mp hm
    exact ⟨d, hd, rfl, by simpa using hstatus⟩
  constructor
  case wellFormed =>
    intro m hm
    obtain ⟨d, hd, rfl, hstatus⟩ := hmem m hm
    exact b.wellFormed d hd hstatus
  case distinct =>
    intro m hm n hn hkey
    obtain ⟨d, hd, rfl, hstatus⟩ := hmem m hm
    obtain ⟨e, he, rfl, hstatus'⟩ := hmem n hn
    exact b.distinct d hd e he hstatus hstatus' hkey
  case records =>
    intro d hd hstatus
    exact List.mem_filter.mpr ⟨List.mem_map.mpr ⟨d, hd, rfl⟩, by simpa using hstatus⟩
  case objects => rintro e (h | ⟨_, h, _⟩ | ⟨_, h, _⟩) <;> cases h
  case named => rintro filename (⟨_, h, _⟩ | ⟨_, h, _⟩) <;> cases h
  all_goals simp [start]

/-- **Every run keeps it**, from the records of an earlier process on. -/
theorem inv_run (b : Backlog) (repositories : Repositories) (disk : Disk) {l : List Event}
    (hl : EachStep (step capacity) Expected (start b.records repositories disk) l)
    (h : run (step capacity) (start b.records repositories disk) l = some s) : Inv s :=
  run_invariant_of_eachStep (fun _ _ _ he hs h => inv_step hs he h) hl
    (inv_start b repositories disk) h

end Logful.WeedFSInvariant
