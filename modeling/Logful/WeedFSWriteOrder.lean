import Logful.WeedFSRetry

/-!
The two puts of `write`: into the queue first, and then into the map of metadata.

From the first of them on the record is with the writer thread, and its file can have been
sent, stored and answered before the second one is made. The reader then finds no metadata for
the file, deletes it all the same, and the metadata comes to the map when nothing will take it
out again. Nor does it find the metadata of a record whose file has another base name than its
key, or that of a file which was answered before.
-/

namespace Logful.WeedFSWriteOrder

open Logful.Documents Logful.Entity Logful.Paths Logful.Runs Logful.WeedFSClientService
open Logful.WeedFSObjects Logful.WeedFSSteps

variable {capacity : ℕ} {s t : State} {c c' : Connection} {e : Event} {m : WeedFSMeta}

/-! ### What is asked of callers and of the file store -/

/-- The service with an open connection, and no call of `write` yet. -/
def opened (records : Collection ObjectId WeedFSMeta) (repositories : Repositories)
    (disk : Disk) : State :=
  { WeedFSRetry.opened records repositories disk with history.written := [] }

/-- Each record is written once, under a key of its own, on a connection that stays open; and what
is answered with success names no other file than the one that was posted. -/
def Expected (s : State) : Event → Prop
  | .write m => ∀ n ∈ s.history.written, n.key ≠ m.key
  | .caller _ _ | .on _ .writer | .on _ .writerFails | .on _ (.reader _) => True
  | .on i (.created content) => NamesNoOther s (.on i (.created content))
  | _ => False

lemma Expected.namesNoOther (he : Expected s e) : NamesNoOther s e := by
  cases e with
  | write | retryPutQueue | caller | channelActive => trivial
  | on i action =>
    cases action with
    | created => exact he
    | writer | writerFails | reader | failed | close | channelInactive => trivial

/-! ### A response and its metadata -/

/-- The step is one of a reader, in which it handles the response. -/
def Handles (s : State) (e : Event) (response : Item) (fault : Option Fault) : Prop :=
  ∃ i c, e = .on i (.reader fault) ∧ s.connections[i]? = some c ∧ Takes s c ∧
    response ∈ s.readQueue.head?

/-- The response names the file that was posted for the record, with the fid and the size. -/
def Names (response : Item) (m : WeedFSMeta) (fid : String) (size : ℤ) : Prop :=
  ∃ url, response.body.responseObject =
    some ⟨some fid, some (getName m.filename), some size, some url⟩

/-- A step from `s` to `t` in which a response that is handled finds its metadata: the map
contains the record, its metadata is saved with the fid, and the map holds no entry for its key
behind the step, and whatever follows. -/
structure FindsMetadata (capacity : ℕ) (s : State) (e : Event) (t : State) : Prop where
  found : ∀ response fault, Handles s e response fault → ∀ m ∈ s.history.written, ∀ fid size,
    Names response m fid size → ∃ key ∈ m.key, ∃ entry ∈ s.weedMetaMap key, entry.body = m
  saved : ∀ response fault, Handles s e response fault → ∀ m ∈ s.history.written, ∀ fid size,
    Names response m fid size → ∀ f ∈ m.fileMeta, InRepository t.repositories (setFid fid size f)
  removed : ∀ response fault, Handles s e response fault → ∀ m ∈ s.history.written, ∀ fid size,
    Names response m fid size → ∀ key ∈ m.key, ∀ l u, EachStep (step capacity) Expected t l →
      run (step capacity) t l = some u → u.weedMetaMap key = none

/-- A call of `write` has the record still to put into the queue, or into the map. -/
def Holds (s : State) (i : ℕ) (x : Item) : Prop := ∃ d ∈ s.callers[i]?, x ∈ d.weedFSMetaList

/-- Both puts of the record have been made; its key is the base name of the file that was posted;
and no response to this file was handled before. -/
structure Ready (s : State) (m : WeedFSMeta) : Prop where
  puts : ∀ i x, Holds s i x → x.body ≠ m
  key : m.key = some (getBaseName (getName m.filename))
  first : getName m.filename ∉ s.history.handled

/-- The handling comes to its end: no call fails, and a report of a crash has its date. -/
def Ends (fault : Option Fault) (m : WeedFSMeta) : Prop :=
  ∀ f ∈ m.fileMeta, fault ≠ some .save ∧
    ∀ report, f = .crash report → report.body.date.isSome ∧ fault ≠ some .send

/-- A response that is handled in the step comes after both puts of the record whose file it
names. -/
def AfterBothPuts (s : State) (e : Event) : Prop :=
  ∀ response fault, Handles s e response fault → ∀ m ∈ s.history.written, ∀ fid size,
    Names response m fid size → Ready s m ∧ Ends fault m

/-! ### The callers -/

/-- A call of `write`, while there is a connection and no error is known. -/
structure Writes (d : Caller) : Prop where
  point : d.point = .connected ∨ d.point = .serverError ∨ d.point = .queue ∨ d.point = .map
  single : d.weedFSMetaList.length ≤ 1

/-- The call goes on to its second put. -/
lemma writes_callerMove {saveFails : Bool} {d d' : Caller} (hconnected : s.connected = true)
    (herror : s.serverError = false) (hd : Writes d) (h : CallerMove s saveFails d t d') :
    Writes d' ∧ d'.weedFSMetaList ⊆ d.weedFSMetaList ∧ t.connected = true ∧
      t.serverError = false := by
  obtain ⟨hpoint, hsingle⟩ := hd
  cases h with
  | looked | found | deleted | saved | unsaved => simp at hpoint
  | begun e list given hgiven point hpoint' =>
    refine ⟨⟨?_, hsingle⟩, List.Subset.refl _, hconnected, herror⟩
    rcases hpoint' with ⟨rfl, -⟩ | ⟨-, hnot⟩
    · exact .inr (.inl rfl)
    · rw [hconnected] at hnot
      cases hnot
  | decided e list point hpoint' =>
    refine ⟨⟨?_, hsingle⟩, List.Subset.refl _, hconnected, herror⟩
    rcases hpoint' with ⟨rfl, -⟩ | ⟨-, hset⟩
    · exact .inr (.inr (.inl rfl))
    · rw [herror] at hset
      cases hset
  | queued e list =>
    exact ⟨⟨.inr (.inr (.inr rfl)), hsingle⟩, List.Subset.refl _, hconnected, herror⟩
  | mapped e list =>
    exact ⟨⟨.inl rfl, (Nat.le_succ _).trans hsingle⟩, List.subset_cons_self e list, hconnected,
      herror⟩
  | keyless e list =>
    exact ⟨⟨.inl rfl, Nat.zero_le _⟩, List.nil_subset _, hconnected, herror⟩

/-! ### What every step preserves -/

/-- Every record is held by one call at most, which has its second put to make; and each entry of
the map, and each name, is that of a record. -/
structure Base (s : State) : Prop where
  connected : s.connected = true
  serverError : s.serverError = false
  responses : ∀ x ∈ s.readQueue, x.id = none
  writes : ∀ d ∈ s.callers, Writes d
  distinct : ∀ m ∈ s.history.written, ∀ n ∈ s.history.written, m.key = n.key → m = n
  objects : ∀ x, Object s x → x.body ∈ s.history.written
  named : ∀ filename, Named s filename → ∃ m ∈ s.history.written, getName m.filename = filename
  once : ∀ i j x y, Holds s i x → Holds s j y → x.body.key = y.body.key → i = j
  keys : ∀ key, ∀ entry ∈ s.weedMetaMap key, ∃ m ∈ s.history.written, m.key = some key
  notInMap : ∀ i x, Holds s i x → ∀ key ∈ x.body.key, s.weedMetaMap key = none
  inMap : ∀ m ∈ s.history.written, ∀ key ∈ m.key, (∃ i x, Holds s i x ∧ x.body = m) ∨
    (∃ entry ∈ s.weedMetaMap key, entry.body = m) ∨ ∃ name ∈ s.history.handled,
      getBaseName name = key

lemma Holds.object {i : ℕ} {x : Item} (h : Holds s i x) : Object s x := by
  obtain ⟨d, hd, hx⟩ := h
  exact .called d (List.mem_of_getElem? hd) hx

/-- What a call holds, it held before, or it begins in this step. -/
lemma Base.holds_step (hs : Base s) (he : Expected s e) (h : step capacity s e = some t) {i : ℕ}
    {x : Item} (hx : Holds t i x) :
    Holds s i x ∨ ∃ m, e = .write m ∧ x = ⟨none, m⟩ ∧ i = s.callers.length := by
  cases e with
  | write m =>
    cases h
    obtain ⟨d, hd, hx⟩ := hx
    by_cases hi : i < s.callers.length
    · exact .inl ⟨d, by rwa [Option.mem_def, List.getElem?_append_left hi] at hd, hx⟩
    · rw [Option.mem_def, List.getElem?_append_right (Nat.le_of_not_lt hi),
        List.getElem?_singleton] at hd
      split_ifs at hd with hzero
      cases hd
      exact .inr ⟨m, rfl, List.mem_singleton.mp hx, by omega⟩
  | retryPutQueue | channelActive => exact he.elim
  | caller j saveFails =>
    refine .inl ?_
    obtain ⟨d, u, d', hj, hmove, rfl⟩ := caller_eq h
    have hcallers : u.callers = s.callers := by cases hmove <;> rfl
    have hsubset := (writes_callerMove hs.connected hs.serverError
      (hs.writes d (List.mem_of_getElem? hj)) hmove).2.1
    obtain ⟨d₁, hd₁, hx⟩ := hx
    by_cases hij : j = i
    · subst hij
      have hlen : j < u.callers.length := by
        rw [hcallers]
        exact (List.getElem?_eq_some_iff.mp hj).1
      rw [Option.mem_def, List.getElem?_set_self hlen] at hd₁
      cases hd₁
      exact ⟨d, hj, hsubset hx⟩
    · rw [Option.mem_def, List.getElem?_set_ne hij, hcallers] at hd₁
      exact ⟨d₁, hd₁, hx⟩
  | on j action =>
    obtain ⟨c, u, c', hj, hact, rfl⟩ := on_eq h
    have hcallers := (acts_act hs.responses hact).1.callers
    obtain ⟨d, hd, hx⟩ := hx
    exact .inl ⟨d, hcallers ▸ hd, hx⟩

/-- A call holds its record until it puts it into the map. -/
lemma Base.holds_kept (hs : Base s) (he : Expected s e) (h : step capacity s e = some t) {i : ℕ}
    {x : Item} (hx : Holds s i x) : Holds t i x ∨ ∀ key ∈ x.body.key,
      ∃ entry ∈ t.weedMetaMap key, entry.body = x.body := by
  obtain ⟨d, hd, hx⟩ := hx
  cases e with
  | write m =>
    cases h
    have hi : i < s.callers.length := (List.getElem?_eq_some_iff.mp hd).1
    exact .inl ⟨d, by rw [Option.mem_def, List.getElem?_append_left hi]; exact hd, hx⟩
  | retryPutQueue | channelActive => exact he.elim
  | caller j saveFails =>
    obtain ⟨d₁, u, d', hj, hmove, rfl⟩ := caller_eq h
    have hcallers : u.callers = s.callers := by cases hmove <;> rfl
    by_cases hij : j = i
    · subst hij
      rw [Option.mem_def.mp hd, Option.some_inj] at hj
      subst hj
      have hlen : j < u.callers.length := by
        rw [hcallers]
        exact (List.getElem?_eq_some_iff.mp hd).1
      have hwrites := hs.writes d (List.mem_of_getElem? hd)
      have hkept : x ∈ d'.weedFSMetaList →
          Holds { u with callers := u.callers.set j d' } j x := fun hx =>
        ⟨d', List.getElem?_set_self hlen, hx⟩
      cases hmove with
      | looked | found | deleted | saved | unsaved => simpa using hwrites.point
      | begun | decided | queued => exact .inl (hkept hx)
      | mapped y list key hkey =>
        have hnil : list = [] := by simpa using hwrites.single
        subst hnil
        obtain rfl := List.mem_singleton.mp hx
        refine .inr fun key' hkey' => ⟨x, ?_, rfl⟩
        rw [hkey, Option.mem_some_iff] at hkey'
        simp [hkey']
      | keyless y list hkey =>
        have hnil : list = [] := by simpa using hwrites.single
        subst hnil
        obtain rfl := List.mem_singleton.mp hx
        refine .inr fun key' hkey' => ?_
        rw [hkey] at hkey'
        cases hkey'
    · refine .inl ⟨d, ?_, hx⟩
      rw [Option.mem_def, List.getElem?_set_ne hij, hcallers]
      exact hd
  | on j action =>
    obtain ⟨c, u, c', hj, hact, rfl⟩ := on_eq h
    have hcallers := (acts_act hs.responses hact).1.callers
    exact .inl ⟨d, hcallers.symm ▸ hd, hx⟩

/-- An entry of the map comes from a call that has held its record till then. -/
lemma Base.weedMetaMap_step (hs : Base s) (he : Expected s e) (h : step capacity s e = some t)
    {key : String} (hkey : s.weedMetaMap key = none) : t.weedMetaMap key = none ∨
      ∃ i x, Holds s i x ∧ x.body.key = some key ∧ ∀ y, ¬ Holds t i y := by
  cases touches_step h with
  | leaves hmap => exact .inl (by rw [hmap, hkey])
  | handled fault response queue l hi htakes hqueue =>
    have hid := hs.responses response (by rw [hqueue]; exact List.mem_cons_self)
    exact .inl (weedMetaMap_handle_none (s := { s with readQueue := queue }) fault hid hkey)
  | caller hi hmove =>
    rename_i i saveFails d d' u
    have hlen : i < s.callers.length := (List.getElem?_eq_some_iff.mp hi).1
    cases hmove with
    | mapped x list k hk =>
      by_cases heq : key = k
      · have hnil : list = [] := by
          simpa using (hs.writes _ (List.mem_of_getElem? hi)).single
        refine .inr ⟨i, x, ⟨_, hi, List.mem_cons_self⟩, by rw [hk, heq], ?_⟩
        rintro y ⟨d, hd, hy⟩
        rw [Option.mem_def, List.getElem?_set_self hlen] at hd
        cases hd
        rw [hnil] at hy
        cases hy
      · exact .inl ((Function.update_of_ne heq ..).trans hkey)
    | looked | found | begun | decided | queued | keyless | deleted | saved | unsaved =>
      exact .inl hkey

lemma handled_subset_step (hids : ∀ x ∈ s.readQueue, x.id = none)
    (h : step capacity s e = some t) : s.history.handled ⊆ t.history.handled := by
  cases touches_step h with
  | leaves _ _ _ _ hhandled => exact hhandled ▸ List.Subset.refl _
  | caller hi hmove => cases hmove <;> exact List.Subset.refl _
  | handled fault response queue l hi htakes hqueue =>
    have hid := hids response (by rw [hqueue]; exact List.mem_cons_self)
    exact handled_subset_handle fault hid { s with readQueue := queue }

/-- A record whose second put is made is in the map until its response is handled. -/
lemma Base.inMap_step (hs : Base s) (he : Expected s e) (h : step capacity s e = some t)
    (hm : m ∈ t.history.written) {key : String} (hkey : key ∈ m.key) :
    (∃ i x, Holds t i x ∧ x.body = m) ∨ (∃ entry ∈ t.weedMetaMap key, entry.body = m) ∨
      ∃ name ∈ t.history.handled, getBaseName name = key := by
  have hold : m ∈ s.history.written ∨ ∃ i x, Holds t i x ∧ x.body = m := by
    rcases written_step hs.responses h with ⟨n, rfl, heq⟩ | heq
    · rw [heq, List.mem_append, List.mem_singleton] at hm
      refine hm.imp_right fun hm => ?_
      cases h
      exact ⟨s.callers.length, ⟨none, n⟩, ⟨⟨.connected, [⟨none, n⟩]⟩, by simp, by simp⟩, hm.symm⟩
    · exact .inl (heq ▸ hm)
  rcases hold with hm | hholds
  · rcases hs.inMap m hm key hkey with ⟨i, x, hx, rfl⟩ | ⟨entry, hentry, hbody⟩ | ⟨name, hname, hb⟩
    · rcases hs.holds_kept he h hx with hx | hmap
      · exact .inl ⟨i, x, hx, rfl⟩
      · exact .inr (.inl (hmap key hkey))
    · cases touches_step h with
      | leaves hmap => exact .inr (.inl ⟨entry, hmap ▸ hentry, hbody⟩)
      | caller hi hmove =>
        refine .inr (.inl ?_)
        cases hmove with
        | mapped x list k hk =>
          by_cases heq : key = k
          · have hx := hs.objects x (.called _ (List.mem_of_getElem? hi) List.mem_cons_self)
            refine ⟨x, by simp [heq], hs.distinct _ hx m hm ?_⟩
            rw [hk, Option.mem_def.mp hkey, heq]
          · exact ⟨entry, by simpa [heq] using hentry, hbody⟩
        | looked | found | begun | decided | queued | keyless | deleted | saved | unsaved =>
          exact ⟨entry, hentry, hbody⟩
      | handled fault response queue l hi htakes hqueue =>
        have hid := hs.responses response (by rw [hqueue]; exact List.mem_cons_self)
        by_cases hother : ∀ filename, Reports response.body.responseObject filename →
            getBaseName filename ≠ key
        · have hsame := weedMetaMap_handle fault hid hother { s with readQueue := queue }
          exact .inr (.inl ⟨entry, hsame.symm ▸ hentry, hbody⟩)
        · push Not at hother
          obtain ⟨filename, hrep, hbase⟩ := hother
          exact .inr (.inr ⟨filename, mem_handled_handle fault hid hrep _, hbase⟩)
    · exact .inr (.inr ⟨name, handled_subset_step hs.responses h hname, hb⟩)
  · exact .inl hholds

/-- **Every step keeps what is known of the calls.** -/
lemma base_step (hs : Base s) (he : Expected s e) (h : step capacity s e = some t) : Base t := by
  have hids := hs.responses
  have hwritten := written_step hids h
  have hgrows : s.history.written ⊆ t.history.written := by
    rcases hwritten with ⟨m, -, heq⟩ | heq
    · exact heq ▸ List.subset_append_left _ _
    · exact heq ▸ List.Subset.refl _
  have hcalls : t.connected = true ∧ t.serverError = false ∧ ∀ d ∈ t.callers, Writes d := by
    cases e with
    | write m =>
      cases h
      refine ⟨hs.connected, hs.serverError, fun d hd => ?_⟩
      rcases List.mem_append.mp hd with hd | hd
      · exact hs.writes d hd
      · rw [List.mem_singleton.mp hd]
        exact ⟨.inl rfl, le_rfl⟩
    | retryPutQueue | channelActive => exact he.elim
    | caller i saveFails =>
      obtain ⟨d, u, d', hi, hmove, rfl⟩ := caller_eq h
      have hcallers : u.callers = s.callers := by cases hmove <;> rfl
      obtain ⟨hd', -, hconnected, herror⟩ := writes_callerMove hs.connected hs.serverError
        (hs.writes d (List.mem_of_getElem? hi)) hmove
      refine ⟨hconnected, herror, fun d₁ hd₁ => ?_⟩
      rcases List.mem_or_eq_of_mem_set hd₁ with hd₁ | rfl
      · exact hs.writes d₁ (hcallers ▸ hd₁)
      · exact hd'
    | on i action =>
      obtain ⟨c, u, c', hi, hact, rfl⟩ := on_eq h
      have hcallers := (acts_act hids hact).1.callers
      have hflags : u.connected = true ∧ u.serverError = false := by
        cases action with
        | writer => cases writerMove_of_step hact <;> exact ⟨hs.connected, hs.serverError⟩
        | writerFails =>
          obtain ⟨rfl, -⟩ := writerFails_eq hact
          exact ⟨hs.connected, hs.serverError⟩
        | reader fault =>
          cases readerMove_of_step hact with
          | moved => exact ⟨hs.connected, hs.serverError⟩
          | handled htakes response queue hqueue =>
            have hid := hids response (by rw [hqueue]; exact List.mem_cons_self)
            have haside := aside_handle fault hid { s with readQueue := queue }
            exact ⟨haside.connected.trans hs.connected, haside.serverError.trans hs.serverError⟩
        | created content => cases answered_of_created hact <;> exact ⟨hs.connected, rfl⟩
        | failed | close | channelInactive => exact he.elim
      refine ⟨hflags.1, hflags.2, fun d hd => hs.writes d ?_⟩
      exact hcallers ▸ hd
  have hobjects : ∀ x, Object t x → x.body ∈ t.history.written := by
    intro x hx
    rcases object_step hids h hx with hx | ⟨m, rfl, rfl⟩ | ⟨doc, -, -, -, d, hd, hfind⟩
    · exact hgrows (hs.objects x hx)
    · cases h
      exact List.mem_append_right _ (List.mem_singleton_self m)
    · -- no tick finds a record
      have hpoint := (hs.writes d hd).point
      rw [hfind] at hpoint
      simp at hpoint
  have hfresh : ∀ m, e = .write m → ∀ n ∈ s.history.written, n.key ≠ m.key := by
    rintro m rfl
    exact he
  constructor
  case connected => exact hcalls.1
  case serverError => exact hcalls.2.1
  case responses => exact ids_step hids h
  case writes => exact hcalls.2.2
  case distinct =>
    rcases hwritten with ⟨m, rfl, heq⟩ | heq
    · rw [heq]
      intro n hn k hk hkey
      rcases List.mem_append.mp hn with hn | hn <;> rcases List.mem_append.mp hk with hk | hk
      · exact hs.distinct n hn k hk hkey
      · rw [List.mem_singleton.mp hk] at hkey
        exact absurd hkey (he n hn)
      · rw [List.mem_singleton.mp hn] at hkey
        exact absurd hkey.symm (he k hk)
      · rw [List.mem_singleton.mp hn, List.mem_singleton.mp hk]
    · rw [heq]
      exact hs.distinct
  case objects => exact hobjects
  case named =>
    intro filename hname
    rcases named_step hids he.namesNoOther h hname with hname | ⟨c, hc, x, hx, rfl⟩
    · obtain ⟨m, hm, hfile⟩ := hs.named filename hname
      exact ⟨m, hgrows hm, hfile⟩
    · exact ⟨x.body, hgrows (hs.objects x (.inHand c hc hx)), rfl⟩
  case once =>
    intro i j x y hx hy hkey
    rcases hs.holds_step he h hx with hx | ⟨m, hwrite, rfl, rfl⟩ <;>
      rcases hs.holds_step he h hy with hy | ⟨n, hwrite', rfl, rfl⟩
    · exact hs.once i j x y hx hy hkey
    · exact absurd hkey (hfresh n hwrite' _ (hs.objects x hx.object))
    · exact absurd hkey.symm (hfresh m hwrite _ (hs.objects y hy.object))
    · rfl
  case keys =>
    intro key entry hentry
    cases hold : s.weedMetaMap key with
    | some entry' =>
      obtain ⟨m, hm, hkey⟩ := hs.keys key entry' hold
      exact ⟨m, hgrows hm, hkey⟩
    | none =>
      rcases hs.weedMetaMap_step he h hold with hnone | ⟨i, x, hx, hkey, -⟩
      · rw [hnone] at hentry
        cases hentry
      · exact ⟨x.body, hgrows (hs.objects x hx.object), hkey⟩
  case notInMap =>
    intro i x hx key hkey
    have hnone : s.weedMetaMap key = none := by
      rcases hs.holds_step he h hx with hx | ⟨m, hwrite, rfl, rfl⟩
      · exact hs.notInMap i x hx key hkey
      · rw [Option.eq_none_iff_forall_not_mem]
        intro entry hentry
        obtain ⟨n, hn, hkey'⟩ := hs.keys key entry hentry
        exact hfresh m hwrite n hn (hkey'.trans (Option.mem_def.mp hkey).symm)
    rcases hs.weedMetaMap_step he h hnone with hnone | ⟨j, y, hy, hkey', hempty⟩
    · exact hnone
    · -- the record of this key was held by the call that has put it into the map
      rcases hs.holds_step he h hx with hold | ⟨m, hwrite, rfl, rfl⟩
      · have hij := hs.once i j x y hold hy ((Option.mem_def.mp hkey).trans hkey'.symm)
        exact absurd (hij ▸ hx) (hempty x)
      · exact absurd (hkey'.trans (Option.mem_def.mp hkey).symm)
          (hfresh m hwrite _ (hs.objects y hy.object))
  case inMap => exact fun m hm key hkey => hs.inMap_step he h hm hkey

/-- No entry of the key is in the map, and none will come to it. -/
structure Gone (s : State) (key : String) : Prop where
  known : ∃ m ∈ s.history.written, m.key = some key
  absent : s.weedMetaMap key = none
  notHeld : ∀ i x, Holds s i x → x.body.key ≠ some key

lemma Gone.step {key : String} (hs : Base s) (he : Expected s e) (h : step capacity s e = some t)
    (hg : Gone s key) : Gone t key := by
  obtain ⟨⟨m, hm, hkey⟩, habsent, hnot⟩ := hg
  constructor
  · refine ⟨m, ?_, hkey⟩
    rcases written_step hs.responses h with ⟨n, -, heq⟩ | heq
    · exact heq ▸ List.mem_append_left _ hm
    · exact heq ▸ hm
  · rcases hs.weedMetaMap_step he h habsent with hnone | ⟨i, x, hx, hkey', -⟩
    · exact hnone
    · exact absurd hkey' (hnot i x hx)
  · intro i x hx hkey'
    rcases hs.holds_step he h hx with hx | ⟨n, rfl, rfl, -⟩
    · exact hnot i x hx hkey'
    · exact he m hm (hkey.trans hkey'.symm)

lemma Gone.run {key : String} {l : List Event} (hs : Base s) (hg : Gone s key)
    (hl : EachStep (WeedFSClientService.step capacity) Expected s l)
    (h : run (WeedFSClientService.step capacity) s l = some t) : t.weedMetaMap key = none :=
  (run_invariant_of_eachStep (I := fun s => Base s ∧ Gone s key)
    (fun _ _ _ he hs h => ⟨base_step hs.1 he h, hs.2.step hs.1 he h⟩) hl ⟨hs, hg⟩ h).2.absent

/-! ### The handling of a response -/

/-- As long as each response found its metadata, the entries of the map are records, and a file that
was handled was that of a record whose key it has for its base name. -/
structure Inv (s : State) : Prop where
  base : Base s
  entries : ∀ key, ∀ entry ∈ s.weedMetaMap key,
    entry.body ∈ s.history.written ∧ entry.body.key = some key
  handled : ∀ name ∈ s.history.handled, Gone s (getBaseName name) ∧
    ∃ m ∈ s.history.written, getName m.filename = name ∧ m.key = some (getBaseName name)

lemma inv_opened (records : Collection ObjectId WeedFSMeta) (repositories : Repositories)
    (disk : Disk) : Inv (opened records repositories disk) := by
  have hnone : ∀ i x, ¬ Holds (opened records repositories disk) i x := by
    rintro i x ⟨d, hd, -⟩
    cases hd
  have hobject : ∀ x, ¬ Object (opened records repositories disk) x := by
    rintro x (h | ⟨d, h, -⟩ | ⟨c, h, hhand⟩)
    · cases h
    · cases h
    · rw [List.mem_singleton.mp h] at hhand
      cases hhand
  have hnamed : ∀ filename, ¬ Named (opened records repositories disk) filename := by
    rintro filename (⟨c, h, r, hr, -⟩ | ⟨x, h, -⟩)
    · rw [List.mem_singleton.mp h] at hr
      cases hr
    · cases h
  constructor
  case base =>
    constructor
    case connected => rfl
    case serverError => rfl
    case objects => exact fun x hx => absurd hx (hobject x)
    case named => exact fun filename hname => absurd hname (hnamed filename)
    case once => exact fun i j x y hx => absurd hx (hnone i x)
    case notInMap => exact fun i x hx => absurd hx (hnone i x)
    all_goals simp [opened, WeedFSRetry.opened, start]
  all_goals simp [opened, WeedFSRetry.opened, start]

/-- A response that is handled in a step is the oldest one of the queue. -/
lemma handles_eq {response : Item} {fault : Option Fault} (hhandles : Handles s e response fault)
    (h : step capacity s e = some t) : ∃ queue l, s.readQueue = response :: queue ∧
      t = { handle fault response { s with readQueue := queue } with connections := l } := by
  obtain ⟨i, c, rfl, hi, htakes, hhead⟩ := hhandles
  obtain ⟨c₁, u, c', hi', hact, rfl⟩ := on_eq h
  obtain rfl : c = c₁ := Option.some_inj.mp (hi.symm.trans hi')
  cases readerMove_of_step hact with
  | moved hnot => exact absurd htakes hnot
  | handled _ response' queue hqueue =>
    rw [hqueue] at hhead
    obtain rfl : response' = response := Option.some_inj.mp hhead
    exact ⟨queue, _, hqueue, rfl⟩

section Response

variable {response : Item} {fault : Option Fault} {queue : List Item} {fid : String} {size : ℤ}

/-- The entry of a record that is ready is in the map. -/
lemma Inv.entry_of_ready (hs : Inv s) (hm : m ∈ s.history.written) (hready : Ready s m) :
    ∃ entry ∈ s.weedMetaMap (getBaseName (getName m.filename)), entry.body = m := by
  rcases hs.base.inMap m hm _ hready.key with ⟨i, x, hx, hbody⟩ | hentry | ⟨name, hname, hbase⟩
  · exact absurd hbody (hready.puts i x hx)
  · exact hentry
  · -- the file that was handled with this base name is that of the record
    obtain ⟨-, n, hn, hfile, hkey⟩ := hs.handled name hname
    have hnm : n = m := hs.base.distinct n hn m hm (by rw [hkey, hready.key, hbase])
    exact absurd (by rw [← hnm, hfile]; exact hname) hready.first

/-- **A response to a record that is ready** finds its metadata. -/
lemma Inv.handle_ready (hs : Inv s) (hqueue : s.readQueue = response :: queue)
    (hm : m ∈ s.history.written) (hnames : Names response m fid size) (hready : Ready s m)
    (hends : Ends fault m) :
    let t := handle fault response { s with readQueue := queue }
    (∀ f ∈ m.fileMeta, InRepository t.repositories (setFid fid size f)) ∧
      t.weedMetaMap (getBaseName (getName m.filename)) = none ∧
      t.history.handled = s.history.handled ++ [getName m.filename] := by
  intro t
  obtain ⟨entry, hentry, hbody⟩ := hs.entry_of_ready hm hready
  rw [Option.mem_def] at hentry
  have hid := hs.base.responses response (by rw [hqueue]; exact List.mem_cons_self)
  obtain ⟨url, hobject⟩ := hnames
  have hmove := handled_of_handle fault hid hobject { s with readQueue := queue }
  change Handled fault fid _ size _ t at hmove
  generalize t = t at hmove ⊢
  cases hmove with
  | absent hnone =>
    rw [hentry] at hnone
    cases hnone
  | empty entry' hentry' hmeta =>
    obtain rfl : entry = entry' := Option.some_inj.mp (hentry.symm.trans hentry')
    refine ⟨fun f hf => ?_, by simp only [Function.update_self], rfl⟩
    rw [← hbody, hmeta] at hf
    cases hf
  | unsaved entry' f hentry' hmeta hfault =>
    obtain rfl : entry = entry' := Option.some_inj.mp (hentry.symm.trans hentry')
    exact absurd hfault (hends f (by rw [← hbody, hmeta]; rfl)).1
  | stopped entry' f withId hentry' hmeta hfault hstops =>
    obtain rfl : entry = entry' := Option.some_inj.mp (hentry.symm.trans hentry')
    exact absurd (hends f (by rw [← hbody, hmeta]; rfl)).2 hstops
  | ended entry' f notices hentry' hmeta hfault =>
    obtain rfl : entry = entry' := Option.some_inj.mp (hentry.symm.trans hentry')
    refine ⟨fun g hg => ?_, by simp only [Function.update_self], rfl⟩
    rw [← hbody, hmeta, Option.mem_some_iff] at hg
    subst hg
    exact (inRepository_save s.repositories _).notices notices

/-- **A response that finds its metadata** is one to a record that is ready. -/
lemma Inv.ready_of_found (hs : Inv s) (hqueue : s.readQueue = response :: queue)
    (hnames : Names response m fid size)
    (hfound : ∃ key ∈ m.key, ∃ entry ∈ s.weedMetaMap key, entry.body = m)
    (hremoved : ∀ key ∈ m.key,
      (handle fault response { s with readQueue := queue }).weedMetaMap key = none) :
    Ready s m ∧ Ends fault m := by
  obtain ⟨key, hkey, entry, hentry, hbody⟩ := hfound
  rw [Option.mem_def] at hentry
  have hnone := hremoved key hkey
  have hid := hs.base.responses response (by rw [hqueue]; exact List.mem_cons_self)
  obtain ⟨url, hobject⟩ := hnames
  have hbase : getBaseName (getName m.filename) = key := by
    by_contra hne
    rw [weedMetaMap_handle fault hid (fun filename hrep => ?_)] at hnone
    · rw [hentry] at hnone
      cases hnone
    · rwa [hrep.filename_eq ⟨fid, size, url, hobject⟩]
  subst hbase
  refine ⟨⟨fun i x hx hxm => ?_, hkey, fun hhandled => ?_⟩, fun f hf => ?_⟩
  · rw [hs.base.notInMap i x hx _ (hxm ▸ hkey)] at hentry
    cases hentry
  · rw [(hs.handled _ hhandled).1.absent] at hentry
    cases hentry
  · have hmove := handled_of_handle fault hid hobject { s with readQueue := queue }
    generalize handle fault response { s with readQueue := queue } = u at hmove hnone
    have hsame : ∀ entry' f', s.weedMetaMap (getBaseName (getName m.filename)) = some entry' →
        entry'.body.fileMeta = some f' → f' = f := by
      intro entry' f' hentry' hmeta
      obtain rfl : entry = entry' := Option.some_inj.mp (hentry.symm.trans hentry')
      rw [hbody, Option.mem_def.mp hf] at hmeta
      exact (Option.some_inj.mp hmeta).symm
    cases hmove with
    | absent h =>
      rw [hentry] at h
      cases h
    | empty entry' hentry' hmeta =>
      obtain rfl : entry = entry' := Option.some_inj.mp (hentry.symm.trans hentry')
      rw [hbody, Option.mem_def.mp hf] at hmeta
      cases hmeta
    | unsaved | stopped =>
      simp only [Function.update_self] at hnone
      cases hnone
    | ended entry' f' notices hentry' hmeta hfault hends =>
      obtain rfl := hsame entry' f' hentry' hmeta
      exact ⟨hfault, hends⟩

end Response

/-- **Every step keeps the invariant**, as long as a response that is handled comes after both
puts of its record. -/
theorem inv_step (hs : Inv s) (he : Expected s e) (hafter : AfterBothPuts s e)
    (h : step capacity s e = some t) : Inv t := by
  have ht := base_step hs.base he h
  have hgrows : s.history.written ⊆ t.history.written := by
    rcases written_step hs.base.responses h with ⟨m, -, heq⟩ | heq
    · exact heq ▸ List.subset_append_left _ _
    · exact heq ▸ List.Subset.refl _
  have hold : ∀ name ∈ s.history.handled, Gone t (getBaseName name) ∧
      ∃ m ∈ t.history.written, getName m.filename = name ∧ m.key = some (getBaseName name) := by
    intro name hname
    obtain ⟨hgone, m, hm, hfile, hkey⟩ := hs.handled name hname
    exact ⟨hgone.step hs.base he h, m, hgrows hm, hfile, hkey⟩
  have hsame : (∀ key, ∀ entry ∈ t.weedMetaMap key, entry ∈ s.weedMetaMap key) →
      ∀ key, ∀ entry ∈ t.weedMetaMap key,
        entry.body ∈ t.history.written ∧ entry.body.key = some key := by
    intro hsubset key entry hentry
    obtain ⟨hin, hkey⟩ := hs.entries key entry (hsubset key entry hentry)
    exact ⟨hgrows hin, hkey⟩
  cases touches_step h with
  | leaves hmap _ _ _ hhandled =>
    exact ⟨ht, hsame (by rw [hmap]; exact fun _ _ h => h), hhandled ▸ hold⟩
  | caller hi hmove =>
    cases hmove with
    | mapped x list k hk =>
      refine ⟨ht, fun key entry hentry => ?_, hold⟩
      have hx := hs.base.objects x (.called _ (List.mem_of_getElem? hi) List.mem_cons_self)
      by_cases heq : key = k
      · subst heq
        simp only [Function.update_self, Option.mem_some_iff] at hentry
        subst hentry
        exact ⟨hx, hk⟩
      · simp only [Function.update_of_ne heq] at hentry
        exact hs.entries key entry hentry
    | looked | found | begun | decided | queued | keyless | deleted | saved | unsaved =>
      exact ⟨ht, hsame fun _ _ h => h, hold⟩
  | handled fault response queue l hi htakes hqueue =>
    have hmem : response ∈ s.readQueue := by rw [hqueue]; exact List.mem_cons_self
    have hid := hs.base.responses response hmem
    by_cases hrep : ∃ filename, Reports response.body.responseObject filename
    · obtain ⟨filename, hrep⟩ := hrep
      obtain ⟨m, hm, rfl⟩ := hs.base.named filename (.answered response hmem hrep)
      obtain ⟨fid, size, hnames⟩ : ∃ fid size, Names response m fid size := by
        obtain ⟨fid, size, url, hobject⟩ := hrep
        exact ⟨fid, size, url, hobject⟩
      have hhandles : Handles s (.on _ (.reader fault)) response fault :=
        ⟨_, _, rfl, hi, htakes, by rw [hqueue]; rfl⟩
      obtain ⟨hready, hends⟩ := hafter response fault hhandles m hm fid size hnames
      obtain ⟨-, habsent, hhandled⟩ := hs.handle_ready hqueue hm hnames hready hends
      have hgone : Gone { handle fault response { s with readQueue := queue } with
          connections := l } (getBaseName (getName m.filename)) := by
        refine ⟨⟨m, hgrows hm, hready.key⟩, habsent, fun i x hx hkey => ?_⟩
        rcases hs.base.holds_step he h hx with hx | ⟨n, hwrite, -⟩
        · refine hready.puts i x hx (hs.base.distinct _ (hs.base.objects x hx.object) m hm ?_)
          rw [hkey, hready.key]
        · cases hwrite
      refine ⟨ht, hsame fun key entry hentry => ?_, fun name hname => ?_⟩
      · by_cases hkey : getBaseName (getName m.filename) = key
        · subst hkey
          have hnone := hgone.absent
          rw [Option.mem_def.mp hentry] at hnone
          cases hnone
        · have hother : ∀ f, Reports response.body.responseObject f → getBaseName f ≠ key := by
            intro f hf
            rwa [hf.filename_eq hrep]
          have hmap := weedMetaMap_handle fault hid hother { s with readQueue := queue }
          exact hmap ▸ hentry
      · have hname : name ∈ (handle fault response
            { s with readQueue := queue }).history.handled := hname
        rw [hhandled, List.mem_append] at hname
        rcases hname with hname | hname
        · exact hold name hname
        · rw [List.mem_singleton.mp hname]
          exact ⟨hgone, m, hgrows hm, rfl, hready.key⟩
    · have hsilent : handle fault response { s with readQueue := queue } =
          { s with readQueue := queue } := handle_silent fault hrep _
      refine ⟨ht, hsame fun key entry hentry => ?_, fun name hname => hold name ?_⟩
      · rw [hsilent] at hentry
        exact hentry
      · rw [hsilent] at hname
        exact hname

/-- In a step a response finds its metadata exactly when it comes after both puts. -/
lemma findsMetadata_iff (hs : Inv s) (he : Expected s e) (h : step capacity s e = some t) :
    FindsMetadata capacity s e t ↔ AfterBothPuts s e := by
  constructor
  · intro hfinds response fault hhandles m hm fid size hnames
    obtain ⟨queue, l, hqueue, rfl⟩ := handles_eq hhandles h
    refine hs.ready_of_found hqueue hnames
      (hfinds.found response fault hhandles m hm fid size hnames) fun key hkey => ?_
    have hnone := hfinds.removed response fault hhandles m hm fid size hnames key hkey [] _ trivial
      rfl
    exact hnone
  · intro hafter
    constructor
    · intro response fault hhandles m hm fid size hnames
      obtain ⟨hready, -⟩ := hafter response fault hhandles m hm fid size hnames
      exact ⟨_, hready.key, hs.entry_of_ready hm hready⟩
    · intro response fault hhandles m hm fid size hnames
      obtain ⟨queue, l, hqueue, rfl⟩ := handles_eq hhandles h
      obtain ⟨hready, hends⟩ := hafter response fault hhandles m hm fid size hnames
      exact (hs.handle_ready hqueue hm hnames hready hends).1
    · intro response fault hhandles m hm fid size hnames key hkey l' u hl' hu
      obtain ⟨hready, hends⟩ := hafter response fault hhandles m hm fid size hnames
      have ht : Inv t := inv_step hs he hafter h
      have hhandled : getName m.filename ∈ t.history.handled := by
        obtain ⟨queue, l, hqueue, rfl⟩ := handles_eq hhandles h
        have heq := (hs.handle_ready hqueue hm hnames hready hends).2.2
        change _ ∈ (handle fault response { s with readQueue := queue }).history.handled
        rw [heq]
        exact List.mem_append_right _ (List.mem_singleton_self _)
      rw [hready.key, Option.mem_some_iff] at hkey
      subst hkey
      exact (ht.handled _ hhandled).1.run ht.base hl' hu

/-- **When a response finds its metadata.** On a connection that stays open, in a run of calls of
`write` for records with distinct keys, steps of the two threads and answers with success, every
response that is handled finds its record in the map, its fid is saved and the map holds no entry
for its key from then on, if and only if each response that is handled is the first one to the
file of its record, comes behind both puts of the record, whose key is the base name of the file,
and is handled to the end. -/
theorem findsMetadata_iff_afterBothPuts (records : Collection ObjectId WeedFSMeta)
    (repositories : Repositories) (disk : Disk) (l : List Event) (s : State)
    (hl : EachStep (step capacity) Expected (opened records repositories disk) l)
    (h : run (step capacity) (opened records repositories disk) l = some s) :
    EachStep (step capacity)
        (fun s e => ∀ t, step capacity s e = some t → FindsMetadata capacity s e t)
        (opened records repositories disk) l ↔
      EachStep (step capacity) AfterBothPuts (opened records repositories disk) l := by
  refine eachStep_iff_eachStep (I := Inv) ?_ ?_ hl (inv_opened records repositories disk) h
  · intro s e t he hs ht
    constructor
    · exact fun hfinds => (findsMetadata_iff hs he ht).mp (hfinds t ht)
    · exact fun hafter u hu => (findsMetadata_iff hs he hu).mpr hafter
  · exact fun s e t he hs hafter ht => inv_step hs he hafter ht

/-! ### An answer before the second put -/

/-- A record is put into the queue, sent and answered. -/
def answeredEarly : List Event :=
  (writes 0 (attachment "a")).take 4 ++ List.replicate 5 (.on 0 .writer) ++
    [.on 0 (.created (.bytes (some (storedObject "a.txt"))))]

lemma expected_answeredEarly {l : List Event} (hl : ∀ e ∈ l, ∀ s, Expected s e) :
    EachStep (step 8) Expected (opened .empty noRepositories twoFiles) (answeredEarly ++ l) := by
  refine eachStep_cons (by simp [Expected, opened]) rfl ?_
  iterate 8 refine eachStep_cons trivial rfl ?_
  refine eachStep_cons (fun c hc request hrequest filename hrep => ?_) rfl
    (eachStep_of_forall_mem hl _)
  cases hc
  cases hrequest
  exact hrep.filename_eq ⟨_, _, _, rfl⟩

lemma afterBothPuts_of_ne (he : ∀ i fault, e ≠ .on i (.reader fault)) : AfterBothPuts s e := by
  rintro response fault ⟨i, c, rfl, -⟩
  exact absurd rfl (he i fault)

/-- The second put of the one record has been made, and no response was handled. -/
def Written (s : State) : Prop :=
  (∀ d ∈ s.callers, d.weedFSMetaList = []) ∧ s.history.written = [attachment "a"] ∧
    s.history.handled = []

instance (s : State) : Decidable (Written s) := inferInstanceAs (Decidable (_ ∧ _ ∧ _))

lemma Written.afterBothPuts {i : ℕ} (hs : Written s) : AfterBothPuts s (.on i (.reader none)) := by
  obtain ⟨hcallers, hwritten, hhandled⟩ := hs
  rintro response fault ⟨j, c, he, -⟩ m hm fid size -
  cases he
  rw [hwritten, List.mem_singleton] at hm
  subst hm
  refine ⟨⟨fun k x ⟨d, hd, hx⟩ => ?_, by decide, by simp [hhandled]⟩, fun f hf => ?_⟩
  · rw [hcallers d (List.mem_of_getElem? hd)] at hx
    cases hx
  · obtain rfl : FileMeta.attachment (.create "a") = f := Option.some_inj.mp hf
    exact ⟨nofun, fun report hreport => by cases hreport⟩

/-- The put into the map comes before the reader takes the response. -/
theorem findsMetadata_iff_afterBothPuts_putMap :
    EachStep (step 8) (fun s e => ∀ t, step 8 s e = some t → FindsMetadata 8 s e t)
      (opened .empty noRepositories twoFiles)
      (answeredEarly ++ [.caller 0 false, .on 0 (.reader none), .on 0 (.reader none)]) := by
  obtain ⟨s, hs⟩ := Option.isSome_iff_exists.mp (show (run (step 8)
    (opened .empty noRepositories twoFiles)
    (answeredEarly ++ [.caller 0 false, .on 0 (.reader none), .on 0 (.reader none)])).isSome by
      decide)
  refine (findsMetadata_iff_afterBothPuts .empty noRepositories twoFiles _ s
    (expected_answeredEarly (by simp [Expected])) hs).mpr ?_
  refine (eachStep_append (p := answeredEarly ++ [.caller 0 false])).mpr ⟨?_, fun t ht => ?_⟩
  · refine eachStep_of_forall_mem (fun e he s => afterBothPuts_of_ne ?_) _
    revert e
    simp [answeredEarly, writes]
  · have hwritten := of_decide_eq_true (eq_of_map_run ht (fun s => decide (Written s)) true
      (by decide))
    refine ⟨hwritten.afterBothPuts, fun u hu => ⟨Written.afterBothPuts ?_, fun _ _ => trivial⟩⟩
    have hrun : run (step 8) (opened .empty noRepositories twoFiles)
        ((answeredEarly ++ [.caller 0 false]) ++ [.on 0 (.reader none)]) = some u :=
      (run_append_eq_some _).mpr ⟨t, ht, by rw [run_cons, hu]; rfl⟩
    exact of_decide_eq_true (eq_of_map_run hrun (fun s => decide (Written s)) true (by decide))

/-- A response does not always find its metadata: the reader deletes the file of a record that is
not in the map yet, no fid is saved, and the record comes to the map then. -/
theorem not_findsMetadata_answeredEarly :
    ∃ s, run (step 8) (opened .empty noRepositories twoFiles)
        (answeredEarly ++ [.on 0 (.reader none), .on 0 (.reader none), .caller 0 false]) = some s ∧
      EachStep (step 8) Expected (opened .empty noRepositories twoFiles)
        (answeredEarly ++ [.on 0 (.reader none), .on 0 (.reader none), .caller 0 false]) ∧
      s.disk "a.txt" = none ∧ s.repositories.attachments.docs = [] ∧
      s.weedMetaMap "a" = some ⟨none, attachment "a"⟩ ∧
      ¬ EachStep (step 8) (fun s e => ∀ t, step 8 s e = some t → FindsMetadata 8 s e t)
        (opened .empty noRepositories twoFiles)
        (answeredEarly ++ [.on 0 (.reader none), .on 0 (.reader none), .caller 0 false]) := by
  obtain ⟨s, hs⟩ := Option.isSome_iff_exists.mp (show (run (step 8)
    (opened .empty noRepositories twoFiles)
    (answeredEarly ++ [.on 0 (.reader none), .on 0 (.reader none), .caller 0 false])).isSome by
      decide)
  refine ⟨s, hs, expected_answeredEarly (by simp [Expected]), ?_, ?_, ?_, fun hall => ?_⟩
  · exact eq_of_map_run hs (·.disk "a.txt") none (by decide)
  · exact eq_of_map_run hs (·.repositories.attachments.docs) [] (by decide)
  · exact eq_of_map_run hs (·.weedMetaMap "a") (some ⟨none, attachment "a"⟩) (by decide)
  · -- the state in which the reader takes the response
    obtain ⟨u, hu, hlast⟩ := (run_append_eq_some (p := answeredEarly ++ [.on 0 (.reader none)])
      (step 8)).mp hs
    obtain ⟨v, hv, -⟩ := (run_cons_eq_some (step 8)).mp hlast
    have hrest := (eachStep_append (p := answeredEarly ++ [.on 0 (.reader none)])
      (l := [.on 0 (.reader none), .caller 0 false])).mp hall
    have hfinds := (hrest.2 u hu).1 v hv
    have htakes := eq_of_map_run hu
      (fun s => s.connections[0]?.map fun c => decide (Takes s c)) (some true) (by decide)
    obtain ⟨c, hc, htakes⟩ := Option.map_eq_some_iff.mp htakes
    have hqueue := eq_of_map_run hu (·.readQueue)
      [⟨none, .createResponse (some (storedObject "a.txt"))⟩] (by decide)
    have hwritten := eq_of_map_run hu (·.history.written) [attachment "a"] (by decide)
    have hnone := eq_of_map_run hu (·.weedMetaMap "a") none (by decide)
    obtain ⟨key, hkey, entry, hentry, -⟩ := hfinds.found
      ⟨none, .createResponse (some (storedObject "a.txt"))⟩ none
      ⟨0, c, rfl, hc, of_decide_eq_true htakes, by rw [hqueue]; rfl⟩ (attachment "a")
      (by rw [hwritten]; exact List.mem_cons_self) "3,01637037d6" 0 ⟨_, rfl⟩
    cases hkey
    rw [hnone] at hentry
    cases hentry

end Logful.WeedFSWriteOrder
