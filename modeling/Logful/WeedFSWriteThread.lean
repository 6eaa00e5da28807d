import Logful.WeedFSObjects

/-!
What becomes of the records that the writer threads take from their queue.

A thread keeps a record until it has sent its file, also over turns of its loop in which the
channel is inactive. When it is stopped it leaves the loop with what it has in its hand, and the
interrupt ends its wait for the channel in front of a poll, so that it may take one more record.
And it lets a record go when its sending throws.
-/

namespace Logful.WeedFSWriteThread

open Logful.Documents Logful.Entity Logful.Runs Logful.WeedFSObjects Logful.WeedFSSteps
open Logful.WeedFSClientService hiding State Event step start

/-- What has become of a record that a thread has taken: it is in its hand; its file was written
to the channel, which was active or was not; there was no file, and its document was marked as
deleted or was not; or the sending threw. -/
inductive Fate
  | inHand | written | cutOff
  | missed (marked : Bool)
  | thrown
  deriving DecidableEq

/-- The service, and the records that the writer of each connection has taken from the queue. -/
structure State where
  service : WeedFSClientService.State
  removed : ℕ → List (Item × Fate)

/-- What a step of the writer from `s` to `t`, in which it lets go of the record, was for it. -/
def fateOf (c : Connection) (s t : WeedFSClientService.State) (weedFSMeta : Item) : Fate :=
  match s.disk weedFSMeta.body.filename with
  | some _ => if c.active then .written else .cutOff
  | none => .missed (t.queueRepository.docs.any fun d =>
      some d.id = weedFSMeta.id && d.body.status = .STATE_DELETED)

/-- The records of a writer behind a step, of which its hand before and behind it is known. -/
def track (fate : Item → Fate) (before behind : Option Item) (removed : List (Item × Fate)) :
    List (Item × Fate) :=
  match before, behind with
  | none, some weedFSMeta => removed ++ [(weedFSMeta, .inHand)]
  | some weedFSMeta, none =>
    removed.map fun p => if p.2 = .inHand then (p.1, fate weedFSMeta) else p
  | _, _ => removed

/-- What the writer of a connection has in its hand. -/
def hand (i : ℕ) (s : WeedFSClientService.State) : Option Item :=
  s.connections[i]?.bind fun c => c.writer.weedFSMeta

/-- What a writer has taken, behind a step of it. -/
def trackStep (i : ℕ) (throws : Bool) (s t : WeedFSClientService.State)
    (removed : ℕ → List (Item × Fate)) : ℕ → List (Item × Fate) :=
  match s.connections[i]? with
  | none => removed
  | some c =>
    let fate weedFSMeta := if throws then .thrown else fateOf c s t weedFSMeta
    Function.update removed i (track fate (hand i s) (hand i t) (removed i))

abbrev Event := WeedFSClientService.Event

def step (capacity : ℕ) (s : State) (e : Event) : Option State :=
  (WeedFSClientService.step capacity s.service e).map fun t =>
    { service := t
      removed :=
        match e with
        | .on i .writer => trackStep i false s.service t s.removed
        | .on i .writerFails => trackStep i true s.service t s.removed
        | _ => s.removed }

def start (queueRepository : Collection ObjectId WeedFSMeta) (repositories : Repositories)
    (disk : Disk) : State :=
  ⟨WeedFSClientService.start queueRepository repositories disk, fun _ => []⟩

/-! ### What is asked of a thread that ends -/

/-- The writer is about to leave its loop, as it was stopped. -/
def Leaves (c : Connection) : Prop := c.writer.point = .test ∧ c.stage.writerRunning = false

/-- The record was written to the active channel; or there was no file, and its document was
marked as deleted, if it has one; or it is in the queue, or has a document. -/
def Accounted (s : State) (p : Item × Fate) : Prop :=
  p.2 = .written ∨ p.2 = .missed true ∨ (p.2 = .missed false ∧ p.1.id = none) ∨
    p.1 ∈ s.service.writeQueue ∨ ∃ d ∈ s.service.queueRepository.docs, p.1.id = some d.id

/-- The step does not end a thread that has dropped one of the records it took. -/
def NoneDropped (s : State) : Event → Prop
  | .on i .writer => ∀ c ∈ s.service.connections[i]?, Leaves c → ∀ p ∈ s.removed i, Accounted s p
  | _ => True

/-- The step does not put a record without an id at risk: the channel is not closed with one in
the hand of its writer; a writer takes none from the queue while its channel is inactive; and the
sending of none throws. -/
def Safe (s : State) : Event → Prop
  | .on i .close | .on i .writerFails =>
    ∀ c ∈ s.service.connections[i]?, ∀ x ∈ c.writer.weedFSMeta, x.id.isSome
  | .on i .writer => ∀ c ∈ s.service.connections[i]?, c.active = false → Polls c →
    ∀ x ∈ s.service.writeQueue.head?, x.id.isSome
  | _ => True

instance (c : Connection) : Decidable (Leaves c) := inferInstanceAs (Decidable (_ ∧ _))

instance (s : State) : (e : Event) → Decidable (Safe s e)
  | .on i .close | .on i .writerFails => inferInstanceAs (Decidable
    (∀ c ∈ s.service.connections[i]?, ∀ x ∈ c.writer.weedFSMeta, x.id.isSome))
  | .on i .writer => inferInstanceAs (Decidable (∀ c ∈ s.service.connections[i]?,
    c.active = false → Polls c → ∀ x ∈ s.service.writeQueue.head?, x.id.isSome))
  | .on _ (.reader _) | .on _ (.created _) | .on _ .failed | .on _ .channelInactive | .write _
  | .retryPutQueue | .caller _ _ | .channelActive => inferInstanceAs (Decidable True)

/-! ### What the service does with records -/

section Service

variable {capacity : ℕ} {s t : WeedFSClientService.State} {c c' : Connection}

/-- The document of the record is there, if the record has an id. -/
def HasDocument (s : WeedFSClientService.State) (x : Item) : Prop :=
  ∀ id ∈ x.id, id ∈ s.queueRepository.ids

/-- No document disappears. -/
lemma ids_stores {records : Collection ObjectId WeedFSMeta} (h : Stores s records) :
    s.queueRepository.ids ⊆ records.ids := by
  cases h with
  | same => exact List.Subset.refl _
  | saved | deleted => exact Collection.ids_subset_save

lemma HasDocument.step {x : Item} {e : Event} (hids : ∀ x ∈ s.readQueue, x.id = none)
    (h : WeedFSClientService.step capacity s e = some t) (hx : HasDocument s x) :
    HasDocument t x :=
  fun id hid => ids_stores (stores_step hids h) (hx id hid)

/-- The objects of the service have documents, if they have ids. -/
lemma hasDocument_object {e : Event} (hids : ∀ x ∈ s.readQueue, x.id = none)
    (hheld : ∀ x, Object s x → HasDocument s x)
    (h : WeedFSClientService.step capacity s e = some t) (x : Item) (hx : Object t x) :
    HasDocument t x := by
  refine HasDocument.step hids h ?_
  rcases object_step hids h hx with hx | ⟨m, -, rfl⟩ | ⟨doc, hdoc, -, rfl, -⟩
  · exact hheld x hx
  · intro id hid
    cases hid
  · intro id hid
    rw [← Option.some_inj.mp hid]
    exact List.mem_map_of_mem hdoc

lemma hand_of_connection {i : ℕ} (hi : s.connections[i]? = some c) :
    hand i s = c.writer.weedFSMeta := by
  rw [hand, hi]
  rfl

lemma hand_set {i : ℕ} (j : ℕ) (hi : s.connections[i]? = some c)
    (h : t.connections = s.connections) :
    hand j { t with connections := t.connections.set i c' } =
      if j = i then c'.writer.weedFSMeta else hand j s := by
  have hlen : i < t.connections.length := h ▸ (List.getElem?_eq_some_iff.mp hi).1
  unfold hand
  split_ifs with hij
  · rw [hij, List.getElem?_set_self hlen]
    rfl
  · rw [List.getElem?_set_ne (Ne.symm hij), h]

/-- The step is one of the writer of the connection. -/
def StepOf (j : ℕ) (e : Event) : Prop := ∃ action, OfWriter action ∧ e = .on j action

/-- What a writer has in its hand changes with its own steps only. -/
lemma hand_step {e : Event} (hids : ∀ x ∈ s.readQueue, x.id = none)
    (h : WeedFSClientService.step capacity s e = some t) (j : ℕ) (hother : ¬ StepOf j e) :
    hand j t = hand j s := by
  cases e with
  | write m =>
    cases h
    rfl
  | retryPutQueue =>
    cases h
    rfl
  | caller i saveFails =>
    obtain ⟨d, u, d', -, hmove, rfl⟩ := caller_eq h
    cases hmove <;> rfl
  | channelActive =>
    obtain rfl := channelActive_eq h
    unfold hand
    rcases Nat.lt_trichotomy j s.connections.length with hlt | rfl | hgt
    · rw [List.getElem?_append_left hlt]
    · simp [newConnection]
    · rw [List.getElem?_eq_none hgt.le, List.getElem?_eq_none]
      rw [List.length_append]
      exact hgt
  | on i action =>
    obtain ⟨c, u, c', hi, hact, rfl⟩ := on_eq h
    obtain ⟨hacts, hhand, -⟩ := acts_act hids hact
    rw [hand_set j hi hacts.connections]
    split_ifs with hij
    · subst hij
      rw [hand_of_connection hi]
      exact hhand fun haction => hother ⟨action, haction, rfl⟩
    · rfl

/-- A writer that finds no file for a record with an id marks its document. -/
lemma marks_of_missed {x : Item} (h : writerStep c s = some (t, c'))
    (hhand : c.writer.weedFSMeta = some x) (hfree : c'.writer.weedFSMeta = none)
    (hdisk : s.disk x.body.filename = none) (hid : x.id.isSome) :
    ∃ d ∈ t.queueRepository.docs, some d.id = x.id ∧ d.body.status = .STATE_DELETED := by
  cases writerMove_of_step h with
  | moved hkept =>
    rw [hfree, hhand] at hkept
    cases hkept
  | took e queue hqueue hpolls =>
    rw [hpolls.2.2] at hhand
    cases hhand
  | sent e content hpoint hhand' hfile =>
    rw [hhand] at hhand'
    cases hhand'
    rw [hdisk] at hfile
    cases hfile
  | missed e queueRepository hpoint hhand' hmissing hfree' hrequests hsave =>
    rw [hhand] at hhand'
    cases hhand'
    rcases hsave with ⟨hnone, -⟩ | ⟨-, rfl⟩
    · rw [hnone] at hid
      cases hid
    · obtain ⟨id, hid⟩ := Option.isSome_iff_exists.mp hid
      refine ⟨_, Collection.mem_save.mpr (.inl rfl), ?_, rfl⟩
      simp [Collection.idFor, hid]

end Service

/-! ### What is known of the records that were taken -/

variable {capacity : ℕ} {s t : State} {e : Event}

lemma mem_track {fate : Item → Fate} {before behind : Option Item} {removed : List (Item × Fate)}
    {p : Item × Fate} (h : p ∈ track fate before behind removed) :
    p ∈ removed ∨ (before = none ∧ behind = some p.1 ∧ p.2 = .inHand) ∨
      ∃ x, before = some x ∧ behind = none ∧ (p.1, .inHand) ∈ removed ∧ p.2 = fate x := by
  unfold track at h
  split at h
  · next x =>
    rcases List.mem_append.mp h with h | h
    · exact .inl h
    · rw [List.mem_singleton.mp h]
      exact .inr (.inl ⟨rfl, rfl, rfl⟩)
  · next x =>
    obtain ⟨q, hq, rfl⟩ := List.mem_map.mp h
    split_ifs with hfate
    · refine .inr (.inr ⟨x, rfl, rfl, ?_, rfl⟩)
      rw [← hfate]
      exact hq
    · exact .inl hq
  · exact .inl h

/-- What is in the hand of a writer, as it was tracked. -/
lemma inHand_track {fate : Item → Fate} (hfate : ∀ x, fate x ≠ .inHand)
    {before behind : Option Item} {removed : List (Item × Fate)}
    (hbefore : ∀ x, (x, .inHand) ∈ removed ↔ before = some x)
    (hsame : before.isSome → behind.isSome → behind = before) (x : Item) :
    (x, .inHand) ∈ track fate before behind removed ↔ behind = some x := by
  cases before with
  | none =>
    cases behind with
    | none => exact hbefore x
    | some y =>
      have hnot : (x, .inHand) ∉ removed := fun h => by simpa using (hbefore x).mp h
      simp [track, hnot, eq_comm]
  | some y =>
    cases behind with
    | none =>
      refine iff_of_false (fun h => ?_) (by simp)
      obtain ⟨q, -, hq⟩ := List.mem_map.mp h
      split_ifs at hq with hin
      · exact hfate y (congrArg Prod.snd hq)
      · exact hin (congrArg Prod.snd hq)
    | some z =>
      rw [hsame rfl rfl]
      exact hbefore x

/-- The channel of the connection is active. -/
def Active (i : ℕ) (s : WeedFSClientService.State) : Prop :=
  ∃ c ∈ s.connections[i]?, c.active = true

/-- An active channel stays active until it is closed. -/
lemma active_step {u v : WeedFSClientService.State} {i : ℕ} (hids : ∀ x ∈ u.readQueue, x.id = none)
    (h : WeedFSClientService.step capacity u e = some v) (hclose : e ≠ .on i .close)
    (hi : Active i u) : Active i v := by
  obtain ⟨c, hc, hactive⟩ := hi
  have hlen : i < u.connections.length := (List.getElem?_eq_some_iff.mp hc).1
  cases e with
  | write m =>
    cases h
    exact ⟨c, hc, hactive⟩
  | retryPutQueue =>
    cases h
    exact ⟨c, hc, hactive⟩
  | caller j saveFails =>
    obtain ⟨d, w, d', -, hmove, rfl⟩ := caller_eq h
    cases hmove <;> exact ⟨c, hc, hactive⟩
  | channelActive =>
    obtain rfl := channelActive_eq h
    exact ⟨c, (List.getElem?_append_left hlen).trans hc, hactive⟩
  | on j action =>
    obtain ⟨d, w, d', hj, hact, rfl⟩ := on_eq h
    obtain ⟨hacts, -, hkept⟩ := acts_act hids hact
    by_cases hij : j = i
    · subst hij
      obtain rfl : d = c := Option.some_inj.mp (hj.symm.trans hc)
      have haction : action ≠ .close := fun haction => hclose (haction ▸ rfl)
      refine ⟨d', List.getElem?_set_self ?_, (hkept haction).trans hactive⟩
      rw [hacts.connections]
      exact hlen
    · refine ⟨c, ?_, hactive⟩
      rw [Option.mem_def, List.getElem?_set_ne hij, hacts.connections]
      exact hc

/-- The record was written to the active channel, or there was no file; or it has an id; or it is
in the hand of the writer of an active channel. -/
def Secure (i : ℕ) (s : WeedFSClientService.State) (p : Item × Fate) : Prop :=
  p.2 = .written ∨ (∃ marked, p.2 = .missed marked) ∨ p.1.id.isSome ∨ (p.2 = .inHand ∧ Active i s)

structure Inv (s : State) : Prop where
  hands : ∀ i x, (x, .inHand) ∈ s.removed i ↔ hand i s.service = some x
  marked : ∀ i x marked, (x, .missed marked) ∈ s.removed i → x.id.isSome → marked = true
  secure : ∀ i, ∀ p ∈ s.removed i, Secure i s.service p
  held : ∀ x, Object s.service x → HasDocument s.service x
  documents : ∀ i, ∀ p ∈ s.removed i, HasDocument s.service p.1
  responses : ∀ x ∈ s.service.readQueue, x.id = none

lemma inv_start (records : Collection ObjectId WeedFSMeta) (repositories : Repositories)
    (disk : Disk) : Inv (start records repositories disk) := by
  have hnone : ∀ x, ¬ Object (start records repositories disk).service x := by
    rintro x (h | ⟨d, hd, -⟩ | ⟨c, hc, -⟩)
    · cases h
    · cases hd
    · cases hc
  refine ⟨?_, ?_, ?_, fun x hx => (hnone x hx).elim, ?_, ?_⟩ <;>
    simp [start, WeedFSClientService.start, hand]

/-- What is known of the records of a writer behind one of its steps, in which it may throw. -/
structure Tracked (i : ℕ) (removed : List (Item × Fate)) (t : WeedFSClientService.State)
    (c' : Connection) : Prop where
  hands : ∀ x, (x, .inHand) ∈ removed ↔ c'.writer.weedFSMeta = some x
  marked : ∀ x marked, (x, .missed marked) ∈ removed → x.id.isSome → marked = true
  secure : ∀ p ∈ removed, Secure i t p

section Writer

variable {c c' : Connection} {u v : WeedFSClientService.State} {i : ℕ}

lemma hands_of_inv (hs : Inv s) (hi : s.service.connections[i]? = some c) (x : Item) :
    (x, .inHand) ∈ s.removed i ↔ c.writer.weedFSMeta = some x := by
  rw [hs.hands, hand_of_connection hi]

lemma fateOf_ne (x : Item) : fateOf c u v x ≠ .inHand := by
  unfold fateOf
  split
  · split_ifs <;> simp
  · simp

/-- A step of the writer that puts no record at risk. -/
lemma tracked_writer (hs : Inv s) (hsafe : Safe s (.on i .writer))
    (hi : s.service.connections[i]? = some c) (h : writerStep c s.service = some (u, c'))
    (hrepository : v.queueRepository = u.queueRepository)
    (hactive : Active i s.service → Active i v) :
    Tracked i (track (fateOf c s.service v) c.writer.weedFSMeta c'.writer.weedFSMeta
      (s.removed i)) v c' := by
  have hbefore := hands_of_inv hs hi
  refine ⟨?_, ?_, ?_⟩
  · refine inHand_track fateOf_ne hbefore fun hsome hsome' => ?_
    cases writerMove_of_step h with
    | moved hhand => exact hhand
    | took e queue hqueue hpolls => simp [hpolls.2.2] at hsome
    | sent e content hpoint hhand hdisk hfree => simp [hfree] at hsome'
    | missed e queueRepository hpoint hhand hdisk hfree => simp [hfree] at hsome'
  · intro x marked hmem hid
    rcases mem_track hmem with hold | ⟨-, -, hfate⟩ | ⟨y, hy, hfree, hin, hfate⟩
    · exact hs.marked i x marked hold hid
    · cases hfate
    · obtain rfl : y = x := Option.some_inj.mp (hy.symm.trans ((hbefore x).mp hin))
      unfold fateOf at hfate
      split at hfate
      · split_ifs at hfate
      · next hdisk =>
        obtain ⟨d, hd, hdid, hstatus⟩ := marks_of_missed h hy hfree hdisk hid
        cases hfate
        refine List.any_eq_true.mpr ⟨d, hrepository ▸ hd, ?_⟩
        simp [hdid, hstatus]
  · rintro ⟨x, fate⟩ hmem
    rcases mem_track hmem with hold | ⟨hfree, hbehind, hfate⟩ | ⟨y, hy, hfree, hin, hfate⟩
    · exact (hs.secure i _ hold).imp_right fun h => h.imp_right fun h => h.imp_right fun h =>
        ⟨h.1, hactive h.2⟩
    · -- the record was taken from the queue
      cases hstate : c.active with
      | true => exact .inr (.inr (.inr ⟨hfate, hactive ⟨c, hi, hstate⟩⟩))
      | false =>
        refine .inr (.inr (.inl ?_))
        cases writerMove_of_step h with
        | moved hhand =>
          rw [hhand, hfree] at hbehind
          cases hbehind
        | took e queue hqueue hpolls hhand =>
          rw [hhand, Option.some_inj] at hbehind
          exact hsafe c hi hstate hpolls x (by rw [hqueue, hbehind]; rfl)
        | sent e content hpoint hhand => simp [hhand] at hfree
        | missed e queueRepository hpoint hhand => simp [hhand] at hfree
    · -- it was let go
      obtain rfl : y = x := Option.some_inj.mp (hy.symm.trans ((hbefore x).mp hin))
      simp only at hfate
      subst hfate
      rw [Secure, fateOf]
      cases hdisk : s.service.disk y.body.filename with
      | none => exact .inr (.inl ⟨_, rfl⟩)
      | some content =>
        cases hstate : c.active with
        | true => exact .inl rfl
        | false =>
          rcases hs.secure i _ hin with h | ⟨_, h⟩ | hid | ⟨-, d, hd, hopen⟩
          · cases h
          · cases h
          · exact .inr (.inr (.inl hid))
          · obtain rfl : c = d := Option.some_inj.mp (hi.symm.trans hd)
            rw [hstate] at hopen
            cases hopen

/-- A sending that throws lets go of a record with an id. -/
lemma tracked_writerFails (hs : Inv s) (hsafe : Safe s (.on i .writerFails))
    (hi : s.service.connections[i]? = some c) (h : writerFails c s.service = some (u, c'))
    (hactive : Active i s.service → Active i v) :
    Tracked i (track (fun _ => .thrown) c.writer.weedFSMeta c'.writer.weedFSMeta
      (s.removed i)) v c' := by
  have hbefore := hands_of_inv hs hi
  obtain ⟨rfl, ⟨e, hhand, -⟩, -, rfl⟩ := writerFails_eq h
  refine ⟨inHand_track (fun _ => by simp) hbefore fun _ hsome => by simp at hsome, ?_, ?_⟩
  · intro x marked hmem
    rcases mem_track hmem with hold | ⟨-, -, hfate⟩ | ⟨y, hy, hfree, hin, hfate⟩
    · exact hs.marked i x marked hold
    · cases hfate
    · cases hfate
  · rintro ⟨x, fate⟩ hmem
    rcases mem_track hmem with hold | ⟨hfree, -, -⟩ | ⟨y, hy, -, hin, -⟩
    · exact (hs.secure i _ hold).imp_right fun h => h.imp_right fun h => h.imp_right fun h =>
        ⟨h.1, hactive h.2⟩
    · rw [hhand] at hfree
      cases hfree
    · exact .inr (.inr (.inl (hsafe c hi x ((hbefore x).mp hin))))

end Writer

/-- What the writers have taken behind a step. -/
lemma step_eq (h : step capacity s e = some t) :
    WeedFSClientService.step capacity s.service e = some t.service ∧
      ∀ j, ¬ StepOf j e → t.removed j = s.removed j := by
  obtain ⟨u, hu, rfl⟩ := Option.map_eq_some_iff.mp h
  have htrack : ∀ i throws j, j ≠ i →
      trackStep i throws s.service u s.removed j = s.removed j := by
    intro i throws j hne
    unfold trackStep
    cases s.service.connections[i]? with
    | none => rfl
    | some c => exact Function.update_of_ne hne ..
  refine ⟨hu, fun j hother => ?_⟩
  split
  · next i => exact htrack i false j fun hij => hother ⟨.writer, trivial, hij ▸ rfl⟩
  · next i => exact htrack i true j fun hij => hother ⟨.writerFails, trivial, hij ▸ rfl⟩
  · rfl

/-- A step of a writer that puts no record at risk. -/
lemma tracked_step {i : ℕ} (hs : Inv s) (hsafe : Safe s e) (he : StepOf i e)
    (h : step capacity s e = some t) :
    ∃ c', t.service.connections[i]? = some c' ∧ Tracked i (t.removed i) t.service c' := by
  obtain ⟨action, haction, rfl⟩ := he
  have hservice := (step_eq h).1
  obtain ⟨v, hv, rfl⟩ := Option.map_eq_some_iff.mp h
  have hactive : Active i s.service → Active i v := active_step hs.responses hservice (by
    rintro heq
    cases heq
    exact haction)
  obtain ⟨c, u, c', hi, hact, rfl⟩ := on_eq hv
  have hconnections := (acts_act hs.responses hact).1.connections
  have hi' : (u.connections.set i c')[i]? = some c' := by
    refine List.getElem?_set_self ?_
    rw [hconnections]
    exact (List.getElem?_eq_some_iff.mp hi).1
  have hhand : hand i { u with connections := u.connections.set i c' } = c'.writer.weedFSMeta :=
    (hand_set i hi hconnections).trans (if_pos rfl)
  refine ⟨c', hi', ?_⟩
  cases action with
  | writer =>
    simp only [trackStep, hi, hhand, hand_of_connection hi, Function.update_self,
      Bool.false_eq_true, if_false]
    exact tracked_writer hs hsafe hi hact rfl hactive
  | writerFails =>
    simp only [trackStep, hi, hhand, hand_of_connection hi, Function.update_self, if_true]
    exact tracked_writerFails hs hsafe hi hact hactive
  | reader | created | failed | close | channelInactive => exact haction.elim

/-- The records of the writers have their documents behind every step. -/
lemma documents_step {u : WeedFSClientService.State} {i : ℕ} {fate : Item → Fate}
    {before behind : Option Item} (hdocuments : ∀ p ∈ s.removed i, HasDocument u p.1)
    (hbehind : ∀ x ∈ behind, HasDocument u x) :
    ∀ p ∈ track fate before behind (s.removed i), HasDocument u p.1 := by
  intro p hp
  rcases mem_track hp with hold | ⟨-, hp, -⟩ | ⟨y, -, -, hin, -⟩
  · exact hdocuments p hold
  · exact hbehind p.1 hp
  · exact hdocuments (p.1, .inHand) hin

lemma removed_step {i : ℕ} (h : step capacity s e = some t) :
    t.removed i = s.removed i ∨ ∃ fate before,
      t.removed i = track fate before (hand i t.service) (s.removed i) := by
  by_cases he : StepOf i e
  · obtain ⟨action, haction, rfl⟩ := he
    obtain ⟨v, hv, rfl⟩ := Option.map_eq_some_iff.mp h
    have htrack : ∀ throws, trackStep i throws s.service v s.removed i = s.removed i ∨
        ∃ fate before, trackStep i throws s.service v s.removed i =
          track fate before (hand i v) (s.removed i) := by
      intro throws
      unfold trackStep
      cases s.service.connections[i]? with
      | none => exact .inl rfl
      | some c => exact .inr ⟨_, _, Function.update_self ..⟩
    cases action with
    | writer => exact htrack false
    | writerFails => exact htrack true
    | reader | created | failed | close | channelInactive => exact haction.elim
  · exact .inl ((step_eq h).2 i he)

/-- **A step that puts no record at risk** keeps the invariant. -/
lemma inv_step (hs : Inv s) (hsafe : Safe s e) (h : step capacity s e = some t) : Inv t := by
  obtain ⟨hservice, hother⟩ := step_eq h
  have hheld := hasDocument_object hs.responses hs.held hservice
  have hkept : ∀ i, ∀ p ∈ s.removed i, HasDocument t.service p.1 := fun i p hp =>
    (hs.documents i p hp).step hs.responses hservice
  have hdocuments : ∀ i, ∀ p ∈ t.removed i, HasDocument t.service p.1 := by
    intro i
    rcases removed_step (i := i) h with hsame | ⟨fate, before, htrack⟩
    · rw [hsame]
      exact hkept i
    · rw [htrack]
      refine documents_step (hkept i) fun x hx => ?_
      obtain ⟨d, hd, hdx⟩ := Option.bind_eq_some_iff.mp hx
      exact hheld x (.inHand d (List.mem_of_getElem? hd) hdx)
  have hwriter : ∀ i, (∀ x, (x, .inHand) ∈ t.removed i ↔ hand i t.service = some x) ∧
      (∀ x marked, (x, .missed marked) ∈ t.removed i → x.id.isSome → marked = true) ∧
      ∀ p ∈ t.removed i, Secure i t.service p := by
    intro i
    by_cases he : StepOf i e
    · obtain ⟨c', hi, htracked⟩ := tracked_step hs hsafe he h
      rw [hand_of_connection hi]
      exact ⟨htracked.hands, htracked.marked, htracked.secure⟩
    · rw [hother i he, hand_step hs.responses hservice i he]
      refine ⟨hs.hands i, hs.marked i, fun p hp => ?_⟩
      rcases hs.secure i p hp with hwritten | hmissed | hid | ⟨hin, hopen⟩
      · exact .inl hwritten
      · exact .inr (.inl hmissed)
      · exact .inr (.inr (.inl hid))
      · by_cases hclose : e = .on i .close
        · -- the record was in the hand when the channel was closed
          subst hclose
          have hhand : hand i s.service = some p.1 := (hs.hands i p.1).mp (by rwa [← hin])
          obtain ⟨c, hc, hx⟩ := Option.bind_eq_some_iff.mp hhand
          exact .inr (.inr (.inl (hsafe c hc p.1 hx)))
        · exact .inr (.inr (.inr ⟨hin, active_step hs.responses hservice hclose hopen⟩))
  exact ⟨fun i => (hwriter i).1, fun i => (hwriter i).2.1, fun i => (hwriter i).2.2, hheld,
    hdocuments, ids_step hs.responses hservice⟩

/-! ### The end of a thread -/

/-- A thread that ends has dropped nothing. -/
lemma noneDropped_of_inv (hs : Inv s) (e : Event) : NoneDropped s e := by
  unfold NoneDropped
  split
  · rintro c hi ⟨-, hstopped⟩ ⟨x, fate⟩ hp
    rename_i i
    rcases hs.secure i _ hp with hwritten | ⟨marked, rfl⟩ | hid | ⟨-, d, hd, hopen⟩
    · exact .inl hwritten
    · cases marked with
      | true => exact .inr (.inl rfl)
      | false =>
        refine .inr (.inr (.inl ⟨rfl, ?_⟩))
        by_contra hid
        exact Bool.false_ne_true (hs.marked i x false hp (Option.isSome_iff_ne_none.mpr hid))
    · obtain ⟨id, hid⟩ := Option.isSome_iff_exists.mp hid
      obtain ⟨doc, hdoc, rfl⟩ := List.mem_map.mp (hs.documents i _ hp id hid)
      exact .inr (.inr (.inr (.inr ⟨doc, hdoc, hid⟩)))
    · -- the writer of an active channel is not stopped
      obtain rfl : c = d := Option.some_inj.mp (hi.symm.trans hd)
      rw [of_decide_eq_true hopen] at hstopped
      cases hstopped
  · trivial

/-- **When the writer threads drop nothing.** In a run of the service in which no step puts a
record without an id at risk, every thread that ends has accounted for all the records it took. -/
theorem noneDropped_of_safe (records : Collection ObjectId WeedFSMeta)
    (repositories : Repositories) (disk : Disk) (l : List Event)
    (hl : EachStep (step capacity) Safe (start records repositories disk) l) :
    EachStep (step capacity) NoneDropped (start records repositories disk) l :=
  eachStep_of_invariant (fun _ _ _ hsafe hs h => inv_step hs hsafe h)
    (fun _ e _ hs => noneDropped_of_inv hs e) hl (inv_start records repositories disk)

/-! ### A thread that is stopped -/

/-- A file is written and sent, and its writer ends later. -/
def sentBefore : List Event :=
  .channelActive :: writes 0 (attachment "a") ++ List.replicate 5 (.on 0 .writer) ++ closed ++
    [.on 0 .writer]

theorem noneDropped_of_safe_sentBefore :
    EachStep (step 8) Safe (start .empty noRepositories twoFiles) sentBefore ∧
      EachStep (step 8) NoneDropped (start .empty noRepositories twoFiles) sentBefore := by
  have hsafe : EachStep (step 8) Safe (start .empty noRepositories twoFiles) sentBefore := by
    decide
  exact ⟨hsafe, noneDropped_of_safe .empty noRepositories twoFiles sentBefore hsafe⟩

/-- The writer waits for the closed channel with a file in the queue, and is stopped then. -/
def stopped : List Event :=
  [.channelActive, .on 0 .writer] ++ writes 0 (attachment "a") ++ closed ++
    List.replicate 3 (.on 0 .writer)

/-- The writer, out of its wait, takes the file from the queue, and ends with it. -/
theorem not_noneDropped_stopped :
    ¬ ∀ capacity records repositories disk l s,
      run (step capacity) (start records repositories disk) l = some s →
        EachStep (step capacity) NoneDropped (start records repositories disk) l := by
  intro h
  obtain ⟨s, hs⟩ := Option.isSome_iff_exists.mp
    (show (run (step 8) (start .empty noRepositories twoFiles) stopped).isSome by decide)
  obtain ⟨t, ht⟩ := Option.isSome_iff_exists.mp (show (run (step 8)
    (start .empty noRepositories twoFiles) (stopped ++ [.on 0 .writer])).isSome by decide)
  have hnone := ((eachStep_append.mp (h 8 .empty noRepositories twoFiles _ t ht)).2 s hs).1
  have hleaves := eq_of_map_run hs
    (fun s => s.service.connections[0]?.map fun c => decide (Leaves c)) (some true) (by decide)
  obtain ⟨c, hc, hleave⟩ := Option.map_eq_some_iff.mp hleaves
  have hremoved := eq_of_map_run hs (fun s => s.removed 0) [(⟨none, attachment "a"⟩, .inHand)]
    (by decide)
  have hqueue := eq_of_map_run hs (·.service.writeQueue) [] (by decide)
  have hp := hnone c hc (of_decide_eq_true hleave) (⟨none, attachment "a"⟩, .inHand)
    (by rw [hremoved]; exact List.mem_cons_self)
  rcases hp with h | h | ⟨h, -⟩ | h | ⟨d, -, h⟩
  · cases h
  · cases h
  · cases h
  · rw [hqueue] at h
    cases h
  · cases h

end Logful.WeedFSWriteThread
