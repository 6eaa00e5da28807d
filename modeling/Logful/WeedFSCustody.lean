import Logful.WeedFSInvariant

/-!
Where a file accepted for storage can be, over every run of the service.

A record is held by a call of `write`, in the queue, by the writer of a connection, by a request
or its response, or in the repository, until its fid is saved. It is lost when a write deletes its
file, as the server is known to fail; when its response comes between the two puts of `write`; and
when what holds it lets it go, unless it has a document.
-/

namespace Logful.WeedFSCustody

open Logful.Documents Logful.Entity Logful.Paths Logful.Runs Logful.WeedFSClientService
open Logful.WeedFSInvariant Logful.WeedFSObjects Logful.WeedFSSteps

variable {capacity : ℕ} {s t : State} {m : WeedFSMeta} {e : Event}

/-! ### The places of a record -/

def Present (s : State) (m : WeedFSMeta) : Prop := (s.disk m.filename).isSome

/-- The call has begun, and has not done anything with its record yet. -/
def BeforePut (point : CallPoint) : Prop :=
  point = .serverError ∨ point = .queue ∨ point = .delete ∨ point = .save

/-- The record of the call that is under way. -/
def Current (d : Caller) (m : WeedFSMeta) : Prop := ∃ e ∈ d.weedFSMetaList.head?, e.body = m

/-- The places of a record whose file is not lost, as long as its fid is not saved. -/
inductive InPlace (s : State) (m : WeedFSMeta) : Prop
  | called (d : Caller) (h : d ∈ s.callers) (hpoint : BeforePut d.point) (hm : Current d m)
  | queued (e : Item) (h : e ∈ s.writeQueue) (hm : e.body = m)
  | inHand (c : Connection) (h : c ∈ s.connections) (hrun : c.stage.writerRunning = true)
      (e : Item) (he : e ∈ c.writer.weedFSMeta) (hm : e.body = m)
  | sent (c : Connection) (h : c ∈ s.connections) (hopen : c.active = true)
      (r : Request) (hr : r ∈ c.unanswered) (hm : r.filename = m.filename)
  | answered (e : Item) (h : e ∈ s.readQueue) (hm : Reports e.body.responseObject m.filename)
  | recorded (d : Document ObjectId WeedFSMeta) (h : d ∈ s.queueRepository.docs)
      (hm : d.body = m) (hnormal : d.body.status = .STATE_NORMAL) (hdisk : Present s m)

/-- The step handles a response to the file of the record, and behind it the repository of its
type has the metadata with the fid and the size of this response. -/
def SavesFid (s t : State) (m : WeedFSMeta) : Prop :=
  ∃ response ∈ s.readQueue.head?, ∃ fid size url f,
    response.body.responseObject = some ⟨some fid, some m.filename, some size, some url⟩ ∧
      m.fileMeta = some f ∧ InRepository t.repositories (setFid fid size f)

/-- The fid of the record was saved in the course of the run. -/
def SavedDuring (capacity : ℕ) (s : State) (l : List Event) (m : WeedFSMeta) : Prop :=
  ∃ p i fault t u, p ++ [.on i (.reader fault)] <+: l ∧ run (step capacity) s p = some t ∧
    step capacity t (.on i (.reader fault)) = some u ∧ SavesFid t u m

/-! ### How a record is lost -/

/-- A call of `write` is between the two puts of the record. -/
def Pending (s : State) (m : WeedFSMeta) : Prop := ∃ d ∈ s.callers, d.point = .map ∧ Current d m

def Documented (s : State) (m : WeedFSMeta) : Prop := ∃ d ∈ s.queueRepository.docs, d.body = m

/-- The reader takes a response to the file of the record. -/
def Answers (s : State) (c : Connection) (m : WeedFSMeta) : Prop :=
  Takes s c ∧ ∃ response ∈ s.readQueue.head?, Reports response.body.responseObject m.filename

/-- A call of `write` deletes the file, as the server is known to fail. -/
def Discards (s : State) (m : WeedFSMeta) : Event → Prop
  | .caller i _ => ∃ d ∈ s.callers[i]?, d.point = .delete ∧ Current d m
  | _ => False

/-- The response is handled between the two puts, with no entry for it in the map. -/
def Early (s : State) (m : WeedFSMeta) : Event → Prop
  | .on i (.reader _) => (∃ c ∈ s.connections[i]?, Answers s c m) ∧ Pending s m ∧
      s.weedMetaMap (getBaseName m.filename) = none
  | _ => False

/-- What holds the record lets it go: a save that fails; a writer that was stopped and takes it
from the queue all the same, that sends it on a channel which is not active any more, that cannot
read its file, or that is stopped with it; an answer with an error, or a channel that is closed
before the answer. -/
def LetsGo (s : State) (m : WeedFSMeta) : Event → Prop
  | .caller i saveFails => saveFails = true ∧ ∃ d ∈ s.callers[i]?, d.point = .save ∧ Current d m
  | .on i action => ∃ c ∈ s.connections[i]?, match action with
    | .writer =>
      (c.stage.writerRunning = false ∧ Polls c ∧ ∃ e ∈ s.writeQueue.head?, e.body = m) ∨
        (c.active = false ∧ c.writer.point = .send ∧ ∃ e ∈ c.writer.weedFSMeta, e.body = m)
    | .writerFails => ∃ e ∈ c.writer.weedFSMeta, e.body = m
    | .reader fault => fault = some .save ∧ Answers s c m
    | .created _ => False
    | .failed => ∃ r ∈ c.unanswered.head?, r.filename = m.filename
    | .close => ∃ r ∈ c.unanswered, r.filename = m.filename
    | .channelInactive => c.stage = .disconnected ∧ ∃ e ∈ c.writer.weedFSMeta, e.body = m
  | _ => False

/-- The step loses the file of the record. -/
def GivesUp (s : State) (m : WeedFSMeta) (e : Event) : Prop :=
  Discards s m e ∨ Early s m e ∨ (LetsGo s m e ∧ ¬ Documented s m)

/-! ### The metadata that a response finds -/

/-- A response to the file finds metadata in the map, or will find it when the call of `write` has
come to its end; or the fid was saved before. -/
def Findable (s : State) (m : WeedFSMeta) : Prop :=
  (s.weedMetaMap (getBaseName m.filename)).isSome ∨ Pending s m ∨ Saved s m

/-- The record is on its way to the file store, or its response on its way back. -/
inductive Underway (s : State) (m : WeedFSMeta) : Prop
  | queued (e : Item) (h : e ∈ s.writeQueue) (hm : e.body = m)
  | inHand (c : Connection) (h : c ∈ s.connections) (e : Item) (he : e ∈ c.writer.weedFSMeta)
      (hm : e.body = m)
  | named (h : Named s m.filename)

lemma saved_step (hids : ∀ x ∈ s.readQueue, x.id = none) (h : step capacity s e = some t)
    (hm : Saved s m) : Saved t m := by
  have hsubset : s.history.saved ⊆ t.history.saved := by
    cases touches_step h with
    | leaves _ _ _ hsaved => exact hsaved ▸ List.Subset.refl _
    | caller hi hmove => cases hmove <;> exact List.Subset.refl _
    | handled fault response queue l hi htakes hqueue =>
      have hid := hids response (by rw [hqueue]; exact List.mem_cons_self)
      exact saved_subset_handle fault hid { s with readQueue := queue }
  obtain ⟨fid, size, f, hf, hin⟩ := hm
  exact ⟨fid, size, f, hf, hsubset hin⟩

/-- What is saved for an entry of the map is the metadata of the record with its key. -/
lemma saved_of_entry {entry : Item} {fileMeta : FileMeta} {filename fid : String} {size : ℤ}
    (hs : Inv s) (hm : m ∈ s.history.written) (hname : m.filename = filename)
    (hentry : s.weedMetaMap (getBaseName filename) = some entry)
    (hmeta : entry.body.fileMeta = some fileMeta) :
    Saved s m ∨ ∃ f, m.fileMeta = some f ∧ setFid fid size fileMeta = setFid fid size f := by
  obtain ⟨n, hn, hkey, h⟩ := hs.entries _ entry hentry
  have hmn : n = m := hs.distinct n hn m hm (by rw [hkey, (hs.wellFormed m hm).key, hname])
  rw [hmn] at h
  rcases h with ⟨f, g, hf, hg, heq⟩ | hsaved
  · rw [hmeta, Option.some_inj] at hf
    exact .inr ⟨g, hg, by rw [hf, heq]⟩
  · exact .inl hsaved

/-- An entry of the map has metadata, or was saved. -/
lemma saved_of_empty {entry : Item} (hs : Inv s) (hm : m ∈ s.history.written)
    (hentry : s.weedMetaMap (getBaseName m.filename) = some entry)
    (hmeta : entry.body.fileMeta = none) : Saved s m := by
  obtain ⟨n, hn, hkey, h⟩ := hs.entries _ entry hentry
  have hmn : n = m := hs.distinct n hn m hm (by rw [hkey, (hs.wellFormed m hm).key])
  rw [hmn] at h
  refine h.resolve_left ?_
  rintro ⟨f, g, hf, -⟩
  rw [hmeta] at hf
  cases hf

/-- **The handling of a response to the file of a record**, with an entry for it in the map: the
fid is saved, or the save fails and the entry and the file stay. -/
lemma saved_or_kept {fault : Option Fault} {response : Item} {queue : List Item} (hs : Inv s)
    (hm : m ∈ s.history.written) (hqueue : s.readQueue = response :: queue)
    (hrep : Reports response.body.responseObject m.filename)
    (hentry : (s.weedMetaMap (getBaseName m.filename)).isSome) :
    let t := handle fault response { s with readQueue := queue }
    Saved t m ∨
      (fault = some .save ∧ (t.weedMetaMap (getBaseName m.filename)).isSome ∧ t.disk = s.disk) := by
  intro t
  have hid := hs.responses response (by rw [hqueue]; exact List.mem_cons_self)
  have hkept : Saved s m → Saved t m := by
    rintro ⟨fid, size, f, hf, hin⟩
    exact ⟨fid, size, f, hf, saved_subset_handle fault hid _ hin⟩
  obtain ⟨fid, size, url, hobject⟩ := hrep
  have hmove := handled_of_handle fault hid hobject { s with readQueue := queue }
  change Handled fault fid m.filename size _ t at hmove
  generalize t = t at hmove hkept ⊢
  cases hmove with
  | absent h =>
    simp only at h
    rw [h] at hentry
    cases hentry
  | empty entry h hmeta => exact .inl (hkept (saved_of_empty hs hm h hmeta))
  | unsaved entry f h hmeta hfault =>
    exact .inr ⟨hfault, by simp only [Function.update_self]; rfl, rfl⟩
  | stopped entry f withId h hmeta | ended entry f notices h hmeta =>
    rcases saved_of_entry hs hm rfl h hmeta with hsaved | ⟨g, hg, heq⟩
    · exact .inl (hkept hsaved)
    · refine .inl ⟨fid, size, g, hg, ?_⟩
      rw [← heq]
      exact List.mem_append_right _ (List.mem_singleton.mpr rfl)

/-- The response that the reader handles is to the file of the record, or the entry of the record
and its file are left alone. -/
lemma other_response {fault : Option Fault} {response : Item} {queue : List Item} (hs : Inv s)
    (hm : m ∈ s.history.written) (hqueue : s.readQueue = response :: queue) :
    let t := handle fault response { s with readQueue := queue }
    Reports response.body.responseObject m.filename ∨
      (t.weedMetaMap (getBaseName m.filename) = s.weedMetaMap (getBaseName m.filename) ∧
        t.disk m.filename = s.disk m.filename) := by
  intro t
  have hmem : response ∈ s.readQueue := by rw [hqueue]; exact List.mem_cons_self
  have hid := hs.responses response hmem
  by_cases hrep : ∃ filename, Reports response.body.responseObject filename
  · obtain ⟨filename, hrep⟩ := hrep
    by_cases hname : m.filename = filename
    · exact .inl (hname ▸ hrep)
    · refine .inr ⟨weedMetaMap_handle fault hid (fun f hf h => hname ?_) _, ?_⟩
      · rw [← hrep.filename_eq hf] at h
        exact hs.eq_of_named hm (.answered response hmem hrep)
          ((hs.wellFormed m hm).key.trans (congrArg some h.symm))
      · obtain ⟨fid, size, url, hobject⟩ := hrep
        have hmove := handled_of_handle fault hid hobject { s with readQueue := queue }
        change Handled fault fid filename size _ t at hmove
        generalize t = t at hmove ⊢
        cases hmove with
        | absent | empty | ended => exact Function.update_of_ne hname _ _
        | unsaved | stopped => rfl
  · exact .inr (by rw [show t = _ from handle_silent fault hrep _]; exact ⟨rfl, rfl⟩)

/-- A record keeps its metadata where its response will find it. -/
lemma findable_step (hs : Inv s) (hm : m ∈ s.history.written) (hearly : ¬ Early s m e)
    (h : step capacity s e = some t) (hf : Findable s m) : Findable t m := by
  have hids := hs.responses
  by_cases hsaved : Saved s m
  · exact .inr (.inr (saved_step hids h hsaved))
  have hkey := (hs.wellFormed m hm).key
  have hpending : Pending s m → ¬ OfCaller e → Findable t m := by
    rintro ⟨d, hd, hpoint, hcurrent⟩ hother
    refine .inr (.inl ⟨d, ?_, hpoint, hcurrent⟩)
    exact mem_callers_step hids h hd fun i saveFails he => (hother (he ▸ trivial)).elim
  cases touches_step h with
  | leaves hmap _ _ _ _ hcaller =>
    rcases hf with hsome | hp | hsaved'
    · exact .inl (by rwa [hmap])
    · exact hpending hp hcaller
    · exact absurd hsaved' hsaved
  | caller hi hmove =>
    rcases hf with hsome | ⟨d, hd, hpoint, x, hx, rfl⟩ | hsaved'
    · refine .inl ?_
      cases hmove with
      | mapped y list k hk =>
        by_cases hbase : getBaseName m.filename = k
        · simp [hbase]
        · simpa [hbase] using hsome
      | looked | found | begun | decided | queued | keyless | deleted | saved | unsaved =>
        exact hsome
    · -- a call that is between its puts goes on to the second one
      rename_i i saveFails d₁ d' u
      by_cases hown : s.callers[i]? = some d
      · rw [hi, Option.some_inj] at hown
        subst hown
        cases hmove with
        | mapped y list k hk =>
          cases hx
          rw [hkey, Option.some_inj] at hk
          exact .inl (by simp [hk])
        | keyless y list hk =>
          cases hx
          rw [hkey] at hk
          cases hk
        | looked | found | begun | decided | queued | deleted | saved | unsaved => cases hpoint
      · refine .inr (.inl ⟨d, mem_callers_step hids h hd fun j f he => ?_, hpoint, x, hx, rfl⟩)
        cases he
        exact hown
    · exact absurd hsaved' hsaved
  | handled fault response queue l hi htakes hqueue =>
    rcases other_response hs hm hqueue with hrep | ⟨hsame, -⟩
    · rcases hf with hsome | hp | hsaved'
      · rcases saved_or_kept hs hm hqueue hrep hsome with hsaved' | ⟨-, hkept, -⟩
        · exact .inr (.inr hsaved')
        · exact .inl hkept
      · cases hentry : s.weedMetaMap (getBaseName m.filename) with
        | none =>
          refine absurd ⟨⟨_, hi, htakes, _, ?_, hrep⟩, hp, hentry⟩ hearly
          rw [hqueue]
          rfl
        | some entry =>
          rcases saved_or_kept hs hm hqueue hrep (by rw [hentry]; rfl) with hsaved' | ⟨-, hkept, -⟩
          · exact .inr (.inr hsaved')
          · exact .inl hkept
      · exact absurd hsaved' hsaved
    · rcases hf with hsome | hp | hsaved'
      · exact .inl (by rw [hsame]; exact hsome)
      · exact hpending hp id
      · exact absurd hsaved' hsaved

/-- A record that sets out is in the map soon. -/
lemma underway_step (hs : Inv s) (hm : m ∈ s.history.written) (he : NamesFile s e)
    (h : step capacity s e = some t) (hu : Underway t m) : Underway s m ∨ Pending t m := by
  have hids := hs.responses
  cases hu with
  | queued x hx hxm =>
    exact (queue_step hids h hx).imp (.queued x · hxm) fun ⟨d, hd, hpoint, hhead⟩ =>
      ⟨d, hd, hpoint, x, hhead, hxm⟩
  | inHand c hc x hx hxm =>
    rcases inHand_step hids h hc hx with hx | ⟨c₁, hc₁, hx⟩
    · exact .inl (.queued x hx hxm)
    · exact .inl (.inHand c₁ hc₁ x hx hxm)
  | named hnamed =>
    rcases named_step hids he.namesNoOther h hnamed with hnamed | ⟨c, hc, x, hx, hname⟩
    · exact .inl (.named hnamed)
    · have hx' := (hs.objects x (.inHand c hc hx)).1
      rw [(hs.wellFormed _ hx').getName] at hname
      exact .inl (.inHand c hc x hx (hs.eq_of_filename hx' hm hname))

/-! ### Where a record is kept -/

/-- The file is there until it is given up, or the fid is saved. -/
lemma present_step (hs : Inv s) (hm : m ∈ s.history.written) (hf : Underway s m → Findable s m)
    (hdiscards : ¬ Discards s m e) (hearly : ¬ Early s m e) (h : step capacity s e = some t)
    (hp : Present s m) : Saved t m ∨ Present t m := by
  by_cases hsaved : Saved s m
  · exact .inl (saved_step hs.responses h hsaved)
  cases touches_step h with
  | leaves _ hdisk => exact .inr (by rwa [Present, hdisk])
  | caller hi hmove =>
    refine .inr ?_
    cases hmove with
    | deleted x list =>
      have hx := (hs.objects x (.called _ (List.mem_of_getElem? hi) List.mem_cons_self)).1
      by_cases hname : m.filename = x.body.filename
      · exact absurd ⟨_, hi, rfl, x, rfl, hs.eq_of_filename hx hm hname.symm⟩ hdiscards
      · simpa [Present, hname] using hp
    | looked | found | begun | decided | queued | mapped | keyless | saved | unsaved => exact hp
  | handled fault response queue l hi htakes hqueue =>
    rcases other_response hs hm hqueue with hrep | ⟨-, hsame⟩
    · have hnamed : Named s m.filename :=
        .answered response (by rw [hqueue]; exact List.mem_cons_self) hrep
      cases hentry : s.weedMetaMap (getBaseName m.filename) with
      | none =>
        rcases hf (.named hnamed) with hsome | hpending | hsaved'
        · rw [hentry] at hsome
          cases hsome
        · refine absurd ⟨⟨_, hi, htakes, response, ?_, hrep⟩, hpending, hentry⟩ hearly
          rw [hqueue]
          rfl
        · exact absurd hsaved' hsaved
      | some entry =>
        rcases saved_or_kept hs hm hqueue hrep (by rw [hentry]; rfl) with hsaved' | ⟨-, -, hdisk⟩
        · exact .inl hsaved'
        · exact .inr (by simpa only [Present, hdisk] using hp)
    · refine .inr ?_
      change ((handle fault response { s with readQueue := queue }).disk m.filename).isSome
      rw [hsame]
      exact hp

/-- While the file is there, the document of the record stays as it is. -/
lemma documented_step (hs : Inv s) (hm : m ∈ s.history.written) (hp : Present s m)
    (h : step capacity s e = some t) (hd : Documented s m) : Documented t m := by
  have hstores := stores_step hs.responses h
  obtain ⟨d, hd, rfl⟩ := hd
  rw [Documented]
  generalize t.queueRepository = records at hstores ⊢
  cases hstores with
  | same => exact ⟨d, hd, rfl⟩
  | saved x hx =>
    -- what is saved in the place of the document is the record itself
    by_cases hid : d.id = s.queueRepository.idFor x
    · have hknown := hs.objects x hx
      refine ⟨_, Collection.mem_save.mpr (.inl rfl), ?_⟩
      exact hs.distinct _ hknown.1 _ hm (hknown.2.key_eq hd hid).symm
    · exact ⟨d, Collection.mem_save.mpr (.inr ⟨hd, hid⟩), rfl⟩
  | deleted x hx hdisk =>
    have hknown := hs.objects x hx
    have haddressed : Addressed s.queueRepository
        { x with body := { x.body with status := .STATE_DELETED } } := hknown.2
    refine ⟨d, Collection.mem_save.mpr (.inr ⟨hd, fun hid => ?_⟩), rfl⟩
    rw [Present, hs.distinct _ hm _ hknown.1 (haddressed.key_eq hd hid), hdisk] at hp
    cases hp

lemma inPlace_of_documented (hs : Inv s) (hm : m ∈ s.history.written) (hd : Documented s m)
    (hp : Present s m) : InPlace s m := by
  obtain ⟨d, hd, rfl⟩ := hd
  exact .recorded d hd rfl (hs.wellFormed _ hm).status hp

/-- A record that a call has yet to put. -/
lemma inPlace_called (hs : Inv s) {d : Caller} (hd : d ∈ s.callers) (hpoint : BeforePut d.point)
    (hcurrent : Current d m) (hdiscards : ¬ Discards s m e) (hlets : ¬ LetsGo s m e)
    (h : step capacity s e = some t) : Documented t m ∨ InPlace t m := by
  by_cases hown : ∃ i saveFails, e = .caller i saveFails ∧ s.callers[i]? = some d
  · obtain ⟨i, saveFails, rfl, hi⟩ := hown
    obtain ⟨d₁, u, d', hi', hmove, rfl⟩ := caller_eq h
    rw [hi, Option.some_inj] at hi'
    subst hi'
    have hlen : i < u.callers.length := by
      have hcallers : u.callers = s.callers := by cases hmove <;> rfl
      rw [hcallers]
      exact (List.getElem?_eq_some_iff.mp hi).1
    obtain ⟨x, hx, rfl⟩ := hcurrent
    cases hmove with
    | looked | found | begun | mapped | keyless => simp [BeforePut] at hpoint
    | decided y list point hpoint' =>
      refine .inr (.called _ (List.mem_set hlen _) ?_ ⟨x, hx, rfl⟩)
      rcases hpoint' with ⟨rfl, -⟩ | ⟨rfl, -⟩
      · exact .inr (.inl rfl)
      · exact .inr (.inr (.inl rfl))
    | queued y list =>
      cases hx
      exact .inr (.queued x (List.mem_append_right _ (List.mem_singleton_self x)) rfl)
    | deleted y list => exact absurd ⟨_, hi, rfl, x, hx, rfl⟩ hdiscards
    | saved y list =>
      cases hx
      exact .inl ⟨_, Collection.mem_save.mpr (.inl rfl), rfl⟩
    | unsaved y list hfails => exact absurd ⟨hfails, _, hi, rfl, x, hx, rfl⟩ hlets
  · refine .inr (.called d (mem_callers_step hs.responses h hd fun i f he hi => ?_) hpoint hcurrent)
    exact hown ⟨i, f, he, hi⟩

section Own

variable {c c' : Connection} {u : State} {i : ℕ} {action : Action}

/-- A record in the hand of a running writer, in a step of its connection. -/
lemma inPlace_inHand (hs : Inv s) (hm : m ∈ s.history.written) (hp : Present s m)
    (hi : s.connections[i]? = some c) (hrun : c.stage.writerRunning = true) {x : Item}
    (hx : x ∈ c.writer.weedFSMeta) (hxm : x.body = m) (hlets : ¬ LetsGo s m (.on i action))
    (hact : act capacity action c s = some (u, c')) :
    InPlace { u with connections := u.connections.set i c' } m := by
  obtain ⟨hacts, hhand, -⟩ := acts_act hs.responses hact
  have hc' : c' ∈ u.connections.set i c' := by
    refine List.mem_set ?_ c'
    rw [hacts.connections]
    exact (List.getElem?_eq_some_iff.mp hi).1
  have hkept : c'.writer.weedFSMeta = c.writer.weedFSMeta → c'.stage.writerRunning = true →
      InPlace { u with connections := u.connections.set i c' } m :=
    fun hhand hrun => .inHand c' hc' hrun x (hhand ▸ hx) hxm
  cases action with
  | writer =>
    have hstage := stage_writer hact
    cases writerMove_of_step hact with
    | moved hhand => exact hkept hhand (hstage ▸ hrun)
    | took y queue hqueue hpolls =>
      rw [hpolls.2.2] at hx
      cases hx
    | sent y content hpoint hhand' hdisk hfree hrequests =>
      obtain rfl : y = x := Option.some_inj.mp (hhand'.symm.trans hx)
      cases hactive : c.active with
      | false => exact absurd ⟨c, hi, .inr ⟨hactive, hpoint, y, hx, hxm⟩⟩ hlets
      | true =>
        refine .sent c' hc' (by rwa [Connection.active, hstage])
          ⟨getName y.body.filename, content⟩ ?_ ?_
        · rw [hrequests]
          exact List.mem_append_right _ (List.mem_singleton_self _)
        · rw [← hxm]
          exact (hs.wellFormed _ (hxm.symm ▸ hm)).getName
    | missed y queueRepository hpoint hhand' hdisk =>
      obtain rfl : y = x := Option.some_inj.mp (hhand'.symm.trans hx)
      rw [Present, ← hxm, hdisk] at hp
      cases hp
  | writerFails => exact absurd ⟨c, hi, x, hx, hxm⟩ hlets
  | reader fault => exact hkept (hhand id) (stage_reader hact ▸ hrun)
  | created content => exact hkept (hhand id) (stage_created hact ▸ hrun)
  | failed => exact hkept (hhand id) (stage_failed hact ▸ hrun)
  | close =>
    obtain ⟨-, rfl⟩ := close_eq hact
    exact hkept (hhand id) rfl
  | channelInactive =>
    refine hkept (hhand id) ?_
    simp only [act, channelInactive] at hact
    cases hstage : c.stage with
    | disconnected => exact absurd ⟨c, hi, hstage, x, hx, hxm⟩ hlets
    | active | readerInterrupted => simp [hstage] at hact
    | inactive =>
      simp only [hstage] at hact
      cases hact
      rfl
    | writerStopped | writerInterrupted | readerStopped =>
      simp [hstage, Stage.writerRunning] at hrun

/-- A request on an open connection, in a step of the connection. -/
lemma inPlace_sent (hs : Inv s) (he : NamesFile s (.on i action))
    (hi : s.connections[i]? = some c) (hopen : c.active = true) {r : Request}
    (hr : r ∈ c.unanswered) (hrm : r.filename = m.filename) (hlets : ¬ LetsGo s m (.on i action))
    (hact : act capacity action c s = some (u, c')) :
    InPlace { u with connections := u.connections.set i c' } m := by
  obtain ⟨hacts, -, hactive⟩ := acts_act hs.responses hact
  have hc' : c' ∈ u.connections.set i c' := by
    refine List.mem_set ?_ c'
    rw [hacts.connections]
    exact (List.getElem?_eq_some_iff.mp hi).1
  have hkept : r ∈ c'.unanswered → action ≠ .close →
      InPlace { u with connections := u.connections.set i c' } m :=
    fun hr hclose => .sent c' hc' ((hactive hclose).trans hopen) r hr hrm
  cases action with
  | writer =>
    refine hkept ?_ nofun
    cases writerMove_of_step hact with
    | moved _ hrequests => exact hrequests ▸ hr
    | took _ _ _ _ _ hrequests => exact hrequests ▸ hr
    | sent _ _ _ _ _ _ hrequests => exact hrequests ▸ List.mem_append_left _ hr
    | missed _ _ _ _ _ _ hrequests => exact hrequests ▸ hr
  | writerFails =>
    obtain ⟨-, -, -, rfl⟩ := writerFails_eq hact
    exact hkept hr nofun
  | reader fault =>
    refine hkept ?_ nofun
    cases readerMove_of_step hact with
    | moved _ _ hrequests => exact hrequests ▸ hr
    | handled _ _ _ _ _ hrequests => exact hrequests ▸ hr
  | created content =>
    obtain ⟨request, object, hrequests, hrep, -, rfl⟩ := answered_of_namesFile hi he hact
    rw [hrequests, List.mem_cons] at hr
    rcases hr with rfl | hr
    · exact .answered _ (List.mem_append_right _ (List.mem_singleton_self _)) (hrm ▸ hrep)
    · exact hkept hr nofun
  | failed =>
    obtain ⟨request, hrequests, -, rfl⟩ := failed_eq hact
    rw [hrequests, List.mem_cons] at hr
    rcases hr with rfl | hr
    · exact absurd ⟨c, hi, r, by rw [hrequests]; rfl, hrm⟩ hlets
    · exact hkept hr nofun
  | close => exact absurd ⟨c, hi, r, hr, hrm⟩ hlets
  | channelInactive =>
    simp only [act, channelInactive, of_decide_eq_true hopen] at hact
    cases hact

end Own

/-- The response to the file of the record is handled. -/
lemma saved_of_answered {i : ℕ} {fault : Option Fault} {c : Connection} {x : Item}
    {queue : List Item} {l : List Connection} (hs : Inv s) (hm : m ∈ s.history.written)
    (hi : s.connections[i]? = some c) (htakes : Takes s c) (hqueue : s.readQueue = x :: queue)
    (hrep : Reports x.body.responseObject m.filename) (hf : Findable s m)
    (hearly : ¬ Early s m (.on i (.reader fault))) (hlets : ¬ LetsGo s m (.on i (.reader fault)))
    (h : step capacity s (.on i (.reader fault)) =
      some { handle fault x { s with readQueue := queue } with connections := l }) :
    Saved { handle fault x { s with readQueue := queue } with connections := l } m := by
  have hanswers : Answers s c m := ⟨htakes, x, by rw [hqueue]; rfl, hrep⟩
  cases hentry : s.weedMetaMap (getBaseName m.filename) with
  | none =>
    rcases hf with hsome | hpending | hsaved
    · rw [hentry] at hsome
      cases hsome
    · exact absurd ⟨⟨c, hi, hanswers⟩, hpending, hentry⟩ hearly
    · exact saved_step hs.responses h hsaved
  | some entry =>
    rcases saved_or_kept hs hm hqueue hrep (by rw [hentry]; rfl) with hsaved | ⟨hfault, -⟩
    · exact hsaved
    · exact absurd ⟨c, hi, hfault, hanswers⟩ hlets

/-- **What holds a record passes it on**, unless it lets it go: behind a step the record is in one
of its places, it has a document, or its fid is saved. -/
lemma inPlace_step (hs : Inv s) (hm : m ∈ s.history.written) (he : NamesFile s e)
    (hf : Underway s m → Findable s m) (hdiscards : ¬ Discards s m e) (hearly : ¬ Early s m e)
    (hlets : ¬ LetsGo s m e) (h : step capacity s e = some t) (hdisk : Present s m)
    (hp : InPlace s m) : Saved t m ∨ Documented t m ∨ InPlace t m := by
  have hids := hs.responses
  cases hp with
  | recorded d hd hdm => exact .inr (.inl (documented_step hs hm hdisk h ⟨d, hd, hdm⟩))
  | called d hd hpoint hcurrent =>
    exact .inr (inPlace_called hs hd hpoint hcurrent hdiscards hlets h)
  | queued x hx hxm =>
    rcases taken_step hids h hx with hx | ⟨i, c, c', rfl, hi, hpolls, hhead, hc', hstage, hx⟩
    · exact .inr (.inr (.queued x hx hxm))
    · cases hrun : c.stage.writerRunning with
      | true => exact .inr (.inr (.inHand c' hc' (hstage ▸ hrun) x hx hxm))
      | false => exact absurd ⟨c, hi, .inl ⟨hrun, hpolls, x, hhead, hxm⟩⟩ hlets
  | inHand c hc hrun x hx hxm =>
    by_cases hown : ∃ i action, e = .on i action ∧ s.connections[i]? = some c
    · obtain ⟨i, action, rfl, hi⟩ := hown
      obtain ⟨c₁, u, c', hi', hact, rfl⟩ := on_eq h
      obtain rfl : c = c₁ := Option.some_inj.mp (hi.symm.trans hi')
      exact .inr (.inr (inPlace_inHand hs hm hdisk hi hrun hx hxm hlets hact))
    · refine .inr (.inr (.inHand c (mem_connections_step hids h hc fun i a he hi => ?_) hrun x hx
        hxm))
      exact hown ⟨i, a, he, hi⟩
  | sent c hc hopen r hr hrm =>
    by_cases hown : ∃ i action, e = .on i action ∧ s.connections[i]? = some c
    · obtain ⟨i, action, rfl, hi⟩ := hown
      obtain ⟨c₁, u, c', hi', hact, rfl⟩ := on_eq h
      obtain rfl : c = c₁ := Option.some_inj.mp (hi.symm.trans hi')
      exact .inr (.inr (inPlace_sent hs he hi hopen hr hrm hlets hact))
    · refine .inr (.inr (.sent c (mem_connections_step hids h hc fun i a he hi => ?_) hopen r hr
        hrm))
      exact hown ⟨i, a, he, hi⟩
  | answered x hx hrep =>
    rcases answered_step hids h hx with hx' | ⟨i, fault, c, queue, l, rfl, hi, htakes, hqueue, rfl⟩
    · exact .inr (.inr (.answered x hx' hrep))
    · exact .inl (saved_of_answered hs hm hi htakes hqueue hrep
        (hf (.named (.answered x hx hrep))) hearly hlets h)

/-! ### Every step, and every run -/

/-- What is known of a record: its response will find it; and once it was given to `write` with
its file, its fid is saved, or the file is there and it is in one of its places. -/
structure Kept (s : State) (m : WeedFSMeta) : Prop where
  findable : Underway s m → Findable s m
  place : m ∈ s.history.given → Saved s m ∨ (Present s m ∧ InPlace s m)

/-- A record that is not known yet is nowhere. -/
lemma kept_written (hs : Inv s) (he : Expected s (.write m))
    (h : step capacity s (.write m) = some t) : Kept t m := by
  cases h
  have hnew : ∀ n ∈ s.history.written, n ≠ m := by
    rintro n hn rfl
    exact he.2 n hn rfl
  constructor
  · rintro (⟨x, hx, hxm⟩ | ⟨c, hc, x, hx, hxm⟩ | hnamed)
    · exact absurd hxm (hnew _ (hs.objects x (.queued hx)).1)
    · exact absurd hxm (hnew _ (hs.objects x (.inHand c hc hx)).1)
    · have hnamed' : Named s m.filename := by
        cases hnamed with
        | sent c hc r hr hname => exact .sent c hc r hr hname
        | answered x hx hrep => exact .answered x hx hrep
      obtain ⟨n, hn, hname⟩ := hs.named _ hnamed'
      refine absurd ?_ (he.2 n hn)
      rw [(hs.wellFormed n hn).key, he.1.key, hname]
  · intro hgiven
    exact absurd rfl (hnew m (hs.given m hgiven))

/-- **Every step that does not give the record up keeps it.** -/
lemma kept_step (hs : Inv s) (hm : m ∈ s.history.written) (he : Expected s e)
    (hgives : ¬ GivesUp s m e) (hk : Kept s m) (h : step capacity s e = some t) : Kept t m := by
  have hids := hs.responses
  have hnames := he.namesFile
  have hdiscards : ¬ Discards s m e := fun hd => hgives (.inl hd)
  have hearly : ¬ Early s m e := fun hd => hgives (.inr (.inl hd))
  constructor
  · intro hu
    rcases underway_step hs hm hnames h hu with hu | hpending
    · exact findable_step hs hm hearly h (hk.findable hu)
    · exact .inr (.inl hpending)
  · intro hgiven
    have ht : Inv t := inv_step hs he h
    have hm' : m ∈ t.history.written := ht.given m hgiven
    -- its call of `write` begins in this step, or it was given before
    rcases given_step hids h hgiven with hold | hbegins
    · rcases hk.place hold with hsaved | ⟨hp, hplace⟩
      · exact .inl (saved_step hids h hsaved)
      · rcases present_step hs hm hk.findable hdiscards hearly h hp with hsaved | hp'
        · exact .inl hsaved
        · refine or_iff_not_imp_left.mpr fun hunsaved => ⟨hp', ?_⟩
          by_cases hd : Documented s m
          · exact inPlace_of_documented ht hm' (documented_step hs hm hp h hd) hp'
          · have hlets : ¬ LetsGo s m e := fun hlets => hgives (.inr (.inr ⟨hlets, hd⟩))
            rcases inPlace_step hs hm hnames hk.findable hdiscards hearly hlets h hp hplace with
              hsaved | hd' | hplace'
            · exact absurd hsaved hunsaved
            · exact inPlace_of_documented ht hm' hd' hp'
            · exact hplace'
    · refine .inr ?_
      cases e with
      | caller i saveFails =>
        obtain ⟨⟨d, hi, hpoint, x, hx, rfl⟩, hp⟩ := hbegins
        obtain ⟨d₁, u, d', hi', hmove, rfl⟩ := caller_eq h
        rw [Option.mem_def.mp hi, Option.some_inj] at hi'
        subst hi'
        have hlen : i < s.callers.length := (List.getElem?_eq_some_iff.mp hi).1
        cases hmove with
        | begun y list given hgiven point hpoint' =>
          refine ⟨hp, .called _ (List.mem_set hlen _) ?_ ⟨x, hx, rfl⟩⟩
          rcases hpoint' with ⟨rfl, -⟩ | ⟨rfl, -⟩
          · exact .inl rfl
          · exact .inr (.inr (.inr rfl))
        | looked | found | decided | queued | mapped | keyless | deleted | saved | unsaved =>
          cases hpoint
      | write | retryPutQueue | channelActive | on => exact hbegins.elim

/-- What is saved is logged with the response it was saved for. -/
def LoggedDuring (capacity : ℕ) (s : State) (l : List Event) (p : String × FileMeta) : Prop :=
  ∃ q i fault t u, q ++ [.on i (.reader fault)] <+: l ∧ run (step capacity) s q = some t ∧
    step capacity t (.on i (.reader fault)) = some u ∧
    ∃ response ∈ t.readQueue.head?, ∃ fid size url f,
      response.body.responseObject = some ⟨some fid, some p.1, some size, some url⟩ ∧
        p.2 = setFid fid size f ∧ InRepository u.repositories p.2

/-- A save is that of a step of the reader, and is in the repository behind it. -/
lemma logged_step {fault : Option Fault} {response : Item} {queue : List Item}
    {p : String × FileMeta} (hid : response.id = none)
    (hp : p ∈ (handle fault response { s with readQueue := queue }).history.saved) :
    p ∈ s.history.saved ∨ ∃ fid size url f,
      response.body.responseObject = some ⟨some fid, some p.1, some size, some url⟩ ∧
        p.2 = setFid fid size f ∧
        InRepository (handle fault response { s with readQueue := queue }).repositories p.2 := by
  by_cases hrep : ∃ filename, Reports response.body.responseObject filename
  · obtain ⟨filename, fid, size, url, hobject⟩ := hrep
    have hmove := handled_of_handle fault hid hobject { s with readQueue := queue }
    generalize handle fault response { s with readQueue := queue } = t at hmove hp ⊢
    cases hmove with
    | absent | empty | unsaved => exact .inl hp
    | stopped entry f withId h hmeta =>
      refine (List.mem_append.mp hp).imp_right fun hp => ?_
      rw [List.mem_singleton.mp hp]
      exact ⟨fid, size, url, f, hobject, rfl, inRepository_save s.repositories _⟩
    | ended entry f notices h hmeta =>
      refine (List.mem_append.mp hp).imp_right fun hp => ?_
      rw [List.mem_singleton.mp hp]
      exact ⟨fid, size, url, f, hobject, rfl, (inRepository_save s.repositories _).notices _⟩
  · rw [handle_silent fault hrep] at hp
    exact .inl hp

lemma logged_run {s₀ : State} {l : List Event} (hids : ∀ x ∈ s₀.readQueue, x.id = none)
    (hsaved : s₀.history.saved = []) (h : run (step capacity) s₀ l = some s) :
    ∀ p ∈ s.history.saved, LoggedDuring capacity s₀ l p := by
  have hlog := run_log_invariant (I := fun l s => run (step capacity) s₀ l = some s ∧
    (∀ x ∈ s.readQueue, x.id = none) ∧ ∀ p ∈ s.history.saved, LoggedDuring capacity s₀ l p)
    ?_ ⟨rfl, hids, by simp [hsaved]⟩ h
  · exact hlog.2.2
  rintro l s e t ⟨hrun, hids, hold⟩ hstep
  have hrun' : run (step capacity) s₀ (l ++ [e]) = some t :=
    (run_append_eq_some _).mpr ⟨s, hrun, by rw [run_cons, hstep]; rfl⟩
  have hmono : ∀ p ∈ s.history.saved, LoggedDuring capacity s₀ (l ++ [e]) p := by
    intro p hp
    obtain ⟨q, i, fault, u, v, hq, hrest⟩ := hold p hp
    exact ⟨q, i, fault, u, v, hq.trans (List.prefix_append l [e]), hrest⟩
  refine ⟨hrun', ids_step hids hstep, fun p hp => ?_⟩
  cases touches_step hstep with
  | leaves _ _ _ hsame => exact hmono p (hsame ▸ hp)
  | caller hi hmove => cases hmove <;> exact hmono p hp
  | handled fault response queue l' hi htakes hqueue =>
    have hid := hids response (by rw [hqueue]; exact List.mem_cons_self)
    rcases logged_step hid hp with hp | hnew
    · exact hmono p hp
    · exact ⟨l, _, fault, s, _, List.prefix_rfl, hrun, hstep, response, by rw [hqueue]; rfl, hnew⟩

/-- A save that was logged took place in the course of the run. -/
lemma savedDuring_of_saved {s₀ : State} {l : List Event} (hids : ∀ x ∈ s₀.readQueue, x.id = none)
    (hsaved : s₀.history.saved = []) (h : run (step capacity) s₀ l = some s) (hm : Saved s m) :
    SavedDuring capacity s₀ l m := by
  obtain ⟨fid, size, g, hg, hin⟩ := hm
  obtain ⟨q, i, fault, t, u, hq, hrun, hstep, response, hhead, fid', size', url, f, hobject, heq,
    hrepository⟩ := logged_run hids hsaved h _ hin
  refine ⟨q, i, fault, t, u, hq, hrun, hstep, response, hhead, fid', size', url, g, hobject, hg, ?_⟩
  -- both are the metadata with the fid and the size of the response
  have hsame : setFid fid' size' g = setFid fid size g := by
    have h := congrArg (setFid fid' size') heq
    rw [setFid_setFid, setFid_setFid] at h
    exact h.trans heq.symm
  rw [hsame]
  exact hrepository

/-- **Where a file accepted for storage can be.** In every state that is reached without a step
that gives the record up, a record that was given to `write` with its file in the directory is in
one of its places, or its fid was saved in its metadata repository. -/
theorem inPlace_of_notGivenUp (b : Backlog) (repositories : Repositories) (disk : Disk)
    (m : WeedFSMeta) (l : List Event) (s : State)
    (hl : EachStep (step capacity) (fun s e => Expected s e ∧ ¬ GivesUp s m e)
      (start b.records repositories disk) l)
    (h : run (step capacity) (start b.records repositories disk) l = some s)
    (hm : m ∈ s.history.given) :
    InPlace s m ∨ SavedDuring capacity (start b.records repositories disk) l m := by
  have hinv := run_invariant_of_eachStep
    (I := fun s => Inv s ∧ (m ∈ s.history.written → Kept s m)) ?_ hl
    ⟨inv_start b repositories disk, fun _ => ⟨?_, fun hgiven => nomatch hgiven⟩⟩ h
  · obtain ⟨hs, hkept⟩ := hinv
    have hids : ∀ x ∈ (start b.records repositories disk).readQueue, x.id = none :=
      fun _ hx => nomatch hx
    rcases (hkept (hs.given m hm)).place hm with hsaved | ⟨-, hplace⟩
    · exact .inr (savedDuring_of_saved hids rfl h hsaved)
    · exact .inl hplace
  · rintro s e t ⟨he, hgives⟩ ⟨hs, hk⟩ hstep
    refine ⟨inv_step hs he hstep, fun hm => ?_⟩
    by_cases hold : m ∈ s.history.written
    · exact kept_step hs hold he hgives (hk hold) hstep
    · rcases written_step hs.responses hstep with ⟨n, rfl, heq⟩ | heq
      · rw [heq, List.mem_append] at hm
        obtain rfl := List.mem_singleton.mp (hm.resolve_left hold)
        exact kept_written hs he hstep
      · exact absurd (heq ▸ hm) hold
  · rintro (⟨x, hx, -⟩ | ⟨c, hc, -⟩ | ⟨c, hc, -⟩ | ⟨x, hx, -⟩)
    · cases hx
    · cases hc
    · cases hc
    · cases hx

/-! ### A record on its way -/

section Decidable

variable (s : State) (m : WeedFSMeta)

instance : Decidable (Present s m) := inferInstanceAs (Decidable (_ = _))

instance (point : CallPoint) : Decidable (BeforePut point) :=
  inferInstanceAs (Decidable (_ ∨ _ ∨ _ ∨ _))

instance (d : Caller) : Decidable (Current d m) := inferInstanceAs (Decidable (∃ e ∈ _, _))

instance : Decidable (Pending s m) := inferInstanceAs (Decidable (∃ d ∈ _, _ ∧ _))

instance : Decidable (Documented s m) := inferInstanceAs (Decidable (∃ d ∈ _, _))

instance (c : Connection) : Decidable (Answers s c m) :=
  inferInstanceAs (Decidable (Takes s c ∧ ∃ response ∈ _, _))

instance : ∀ e, Decidable (Discards s m e)
  | .caller _ _ => inferInstanceAs (Decidable (∃ d ∈ _, _ ∧ _))
  | .write _ | .retryPutQueue | .channelActive | .on _ _ => inferInstanceAs (Decidable False)

instance : ∀ e, Decidable (Early s m e)
  | .on _ (.reader _) => inferInstanceAs (Decidable ((∃ c ∈ _, _) ∧ _ ∧ _))
  | .on _ .writer | .on _ .writerFails | .on _ (.created _) | .on _ .failed | .on _ .close
  | .on _ .channelInactive | .write _ | .retryPutQueue | .caller _ _ | .channelActive =>
    inferInstanceAs (Decidable False)

instance : ∀ e, Decidable (LetsGo s m e)
  | .caller _ _ => inferInstanceAs (Decidable (_ ∧ ∃ d ∈ _, _ ∧ _))
  | .on _ .writer => inferInstanceAs (Decidable (∃ c ∈ _, (_ ∧ _ ∧ ∃ e ∈ _, _) ∨
      (_ ∧ _ ∧ ∃ e ∈ _, _)))
  | .on _ .writerFails | .on _ .failed => inferInstanceAs (Decidable (∃ c ∈ _, ∃ e ∈ _, _))
  | .on _ .close => inferInstanceAs (Decidable (∃ c ∈ _, ∃ r ∈ _, _))
  | .on _ (.reader _) => inferInstanceAs (Decidable (∃ c ∈ _, _ ∧ _))
  | .on _ (.created _) => inferInstanceAs (Decidable (∃ c ∈ _, False))
  | .on _ .channelInactive => inferInstanceAs (Decidable (∃ c ∈ _, _ ∧ ∃ e ∈ _, _))
  | .write _ | .retryPutQueue | .channelActive => inferInstanceAs (Decidable False)

instance (e : Event) : Decidable (GivesUp s m e) :=
  inferInstanceAs (Decidable (_ ∨ _ ∨ (_ ∧ ¬ _)))

instance : Decidable (InPlace s m) :=
  decidable_of_iff ((∃ d ∈ s.callers, BeforePut d.point ∧ Current d m) ∨
    (∃ e ∈ s.writeQueue, e.body = m) ∨
    (∃ c ∈ s.connections, c.stage.writerRunning = true ∧ ∃ e ∈ c.writer.weedFSMeta, e.body = m) ∨
    (∃ c ∈ s.connections, c.active = true ∧ ∃ r ∈ c.unanswered, r.filename = m.filename) ∨
    (∃ e ∈ s.readQueue, Reports e.body.responseObject m.filename) ∨
    (∃ d ∈ s.queueRepository.docs, d.body = m ∧ d.body.status = .STATE_NORMAL ∧ Present s m)) <| by
      constructor
      · rintro (⟨d, h, hpoint, hm⟩ | ⟨e, h, hm⟩ | ⟨c, h, hrun, e, he, hm⟩ |
          ⟨c, h, hopen, r, hr, hm⟩ | ⟨e, h, hm⟩ | ⟨d, h, hm, hnormal, hdisk⟩)
        · exact .called d h hpoint hm
        · exact .queued e h hm
        · exact .inHand c h hrun e he hm
        · exact .sent c h hopen r hr hm
        · exact .answered e h hm
        · exact .recorded d h hm hnormal hdisk
      · rintro (⟨d, h, hpoint, hm⟩ | ⟨e, h, hm⟩ | ⟨c, h, hrun, e, he, hm⟩ |
          ⟨c, h, hopen, r, hr, hm⟩ | ⟨e, h, hm⟩ | ⟨d, h, hm, hnormal, hdisk⟩)
        · exact .inl ⟨d, h, hpoint, hm⟩
        · exact .inr (.inl ⟨e, h, hm⟩)
        · exact .inr (.inr (.inl ⟨c, h, hrun, e, he, hm⟩))
        · exact .inr (.inr (.inr (.inl ⟨c, h, hopen, r, hr, hm⟩)))
        · exact .inr (.inr (.inr (.inr (.inl ⟨e, h, hm⟩))))
        · exact .inr (.inr (.inr (.inr (.inr ⟨d, h, hm, hnormal, hdisk⟩))))

end Decidable

def noBacklog : Backlog where
  records := .empty
  wellFormed := by simp [Collection.empty]
  distinct := by simp [Collection.empty]

/-- A connection is made, a file is written, and the writer sends it. -/
def sent : List Event :=
  .channelActive :: writes 0 (attachment "a") ++ List.replicate 5 (.on 0 .writer)

def answered (object : Option ResponseObject) : Event := .on 0 (.created (.bytes object))

def dottedFile : Disk := fun name => if name = "a.b.txt" then some [] else none

/-- An attachment with a dot in its extension. -/
def dotted : WeedFSMeta := .create (some "a") (some "b.txt") (.attachment (.create "a"))

theorem inPlace_of_notGivenUp_answered :
    ∃ s, run (step 8) (start noBacklog.records noRepositories twoFiles)
        (sent ++ [answered (some (storedObject "a.txt"))]) = some s ∧
      (InPlace s (attachment "a") ∨ SavedDuring 8 (start noBacklog.records noRepositories twoFiles)
        (sent ++ [answered (some (storedObject "a.txt"))]) (attachment "a")) := by
  obtain ⟨s, hs⟩ := Option.isSome_iff_exists.mp (show (run (step 8)
    (start noBacklog.records noRepositories twoFiles)
    (sent ++ [answered (some (storedObject "a.txt"))])).isSome by decide)
  have hgiven := eq_of_map_run hs (·.history.given) [attachment "a"] (by decide)
  exact ⟨s, hs, inPlace_of_notGivenUp noBacklog noRepositories twoFiles (attachment "a") _ s
    (by decide) hs (by rw [hgiven]; exact List.mem_cons_self)⟩

/-! ### How each of them is lost -/

/-- The record was given to `write` with its file in the directory, and is in none of its places,
nor was its fid saved. -/
def Lost (disk : Disk) (m : WeedFSMeta) (l : List Event) : Prop :=
  ∃ s, run (step 8) (start noBacklog.records noRepositories disk) l = some s ∧
    m ∈ s.history.given ∧ ¬ InPlace s m ∧
    ¬ SavedDuring 8 (start noBacklog.records noRepositories disk) l m

/-- An attachment is lost when it is in none of its places and nothing was saved on the way. -/
lemma lost_of_unsaved {disk : Disk} {m : WeedFSMeta} {f : AttachFileMeta} {l : List Event}
    (hm : m.fileMeta = some (.attachment f))
    (hplace : (run (step 8) (start noBacklog.records noRepositories disk) l).map (fun s =>
      decide (m ∈ s.history.given ∧ ¬ InPlace s m)) = some true)
    (hnone : ∀ q ∈ l.inits,
      ∀ t ∈ run (step 8) (start noBacklog.records noRepositories disk) q,
        t.repositories.attachments.docs = []) : Lost disk m l := by
  obtain ⟨s, hs, hplace⟩ := Option.map_eq_some_iff.mp hplace
  obtain ⟨hgiven, hplace⟩ := of_decide_eq_true hplace
  refine ⟨s, hs, hgiven, hplace, ?_⟩
  rintro ⟨q, i, fault, t, u, hq, ht, hu, response, -, fid, size, url, g, -, hg, hin⟩
  have hrun : run (step 8) (start noBacklog.records noRepositories disk)
      (q ++ [.on i (.reader fault)]) = some u :=
    (run_append_eq_some _).mpr ⟨t, ht, by rw [run_cons, hu]; rfl⟩
  rw [hm, Option.some_inj] at hg
  subst hg
  obtain ⟨d, hd, -⟩ := hin
  rw [hnone _ ((List.mem_inits _ _).mpr hq) u hrun] at hd
  cases hd

/-- **Each way to lose a file.** A write deletes it behind an error; its response comes between the
two puts of `write`; it is answered with an error, or its channel is closed before the answer; the
writer is stopped with it, takes it from the queue when it is stopped, sends it on a closed
channel, or cannot read it; the save of the record fails, or that of its fid; the extension has a
dot, so that the key is not the base name of the file; or the answer does not name the file. -/
theorem lost_each :
    Lost twoFiles (attachment "b")
      (sent ++ [.on 0 .failed, .write (attachment "b")] ++ List.replicate 3 (.caller 1 false)) ∧
    Lost twoFiles (attachment "a") (.channelActive :: (writes 0 (attachment "a")).take 4 ++
      List.replicate 5 (.on 0 .writer) ++ [answered (some (storedObject "a.txt"))] ++
        List.replicate 2 (.on 0 (.reader none))) ∧
    Lost twoFiles (attachment "a") (sent ++ [.on 0 .failed]) ∧
    Lost twoFiles (attachment "a") (sent ++ [.on 0 .close]) ∧
    Lost twoFiles (attachment "a") (.channelActive :: writes 0 (attachment "a") ++
      List.replicate 3 (.on 0 .writer) ++ closed) ∧
    Lost twoFiles (attachment "a") ([.channelActive, .on 0 .writer] ++ writes 0 (attachment "a") ++
      closed ++ List.replicate 2 (.on 0 .writer)) ∧
    Lost twoFiles (attachment "a") (.channelActive :: writes 0 (attachment "a") ++
      List.replicate 4 (.on 0 .writer) ++ [.on 0 .close, .on 0 .writer]) ∧
    Lost twoFiles (attachment "a") (.channelActive :: writes 0 (attachment "a") ++
      List.replicate 4 (.on 0 .writer) ++ [.on 0 .writerFails]) ∧
    Lost twoFiles (attachment "a") [.write (attachment "a"), .caller 0 false, .caller 0 true] ∧
    Lost twoFiles (attachment "a") (sent ++ [answered (some (storedObject "a.txt")),
      .on 0 (.reader none), .on 0 (.reader (some .save))]) ∧
    Lost dottedFile dotted (.channelActive :: writes 0 dotted ++ List.replicate 5 (.on 0 .writer) ++
      [answered (some (storedObject "a.b.txt"))] ++ List.replicate 2 (.on 0 (.reader none))) ∧
    Lost twoFiles (attachment "a") (sent ++ [answered none]) := by
  refine ⟨?_, ?_, ?_, ?_, ?_, ?_, ?_, ?_, ?_, ?_, ?_, ?_⟩ <;>
    exact lost_of_unsaved rfl (by decide) (by decide)

end Logful.WeedFSCustody
