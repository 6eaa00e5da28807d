import Logful.WeedFSSteps

/-!
Where the objects of the service come from.

A record is passed on as an object: from a caller to the queue, and into the hand of a writer.
Nothing else makes one but a call of `write`, and a tick that reads a document; what is saved as a
document is such an object, and what is named by a request is the file of one. None of this
depends on the order of the steps.
-/

namespace Logful.WeedFSObjects

open Logful.Documents Logful.Entity Logful.Paths Logful.WeedFSClientService Logful.WeedFSSteps

variable {s t u : State} {c c' : Connection} {capacity : ℕ} {e : Event}

/-- An object that stands for a record. -/
inductive Object (s : State) (x : Item) : Prop
  | queued (h : x ∈ s.writeQueue)
  | called (d : Caller) (hd : d ∈ s.callers) (h : x ∈ d.weedFSMetaList)
  | inHand (c : Connection) (hc : c ∈ s.connections) (h : x ∈ c.writer.weedFSMeta)

/-- A file that is named by a request or a response on its way. -/
inductive Named (s : State) (filename : String) : Prop
  | sent (c : Connection) (hc : c ∈ s.connections) (r : Request) (hr : r ∈ c.unanswered)
      (hname : r.filename = filename)
  | answered (x : Item) (hx : x ∈ s.readQueue) (h : Reports x.body.responseObject filename)

/-- The documents are as they were, or one of the objects was saved; as deleted, if its file was
missing. -/
inductive Stores (s : State) : Collection ObjectId WeedFSMeta → Prop
  | same : Stores s s.queueRepository
  | saved (x : Item) (hx : Object s x) : Stores s (s.queueRepository.save x)
  | deleted (x : Item) (hx : Object s x) (hdisk : s.disk x.body.filename = none) :
      Stores s (s.queueRepository.save { x with body := { x.body with status := .STATE_DELETED } })

/-! ### Connections -/

/-- The step is one in which the writer may take a record into its hand, or let it go. -/
def OfWriter : Action → Prop
  | .writer | .writerFails => True
  | _ => False

/-- What a connection does to the state and to itself. -/
structure Acts (s : State) (c : Connection) (t : State) (c' : Connection) : Prop where
  connections : t.connections = s.connections
  callers : t.callers = s.callers
  written : t.history.written = s.history.written
  given : t.history.given = s.history.given
  queue : t.writeQueue ⊆ s.writeQueue
  hand : ∀ x ∈ c'.writer.weedFSMeta, x ∈ c.writer.weedFSMeta ∨ x ∈ s.writeQueue
  requests : ∀ r ∈ c'.unanswered, r ∈ c.unanswered ∨
    ∃ x ∈ c.writer.weedFSMeta, r.filename = getName x.body.filename
  documents : c ∈ s.connections → Stores s t.queueRepository

/-- A connection that keeps its record and its requests, and leaves the queues alone. -/
lemma acts_same (hhand : c'.writer.weedFSMeta = c.writer.weedFSMeta)
    (hrequests : c'.unanswered ⊆ c.unanswered) (connected serverError : Bool) :
    Acts s c { s with connected := connected, serverError := serverError } c' :=
  ⟨rfl, rfl, rfl, rfl, List.Subset.refl _, fun _ hx => .inl (hhand ▸ hx),
    fun _ hr => .inl (hrequests hr), fun _ => .same⟩

lemma acts_writer (h : writerStep c s = some (t, c')) : Acts s c t c' := by
  cases writerMove_of_step h with
  | moved hhand hrequests => exact acts_same hhand (hrequests ▸ List.Subset.refl _) _ _
  | took e queue hqueue hpolls hhand hrequests =>
    refine ⟨rfl, rfl, rfl, rfl, ?_, fun x hx => .inr ?_, fun r hr => .inl (hrequests ▸ hr),
      fun _ => .same⟩
    · rw [hqueue]
      exact List.subset_cons_self e queue
    · rw [hhand, Option.mem_some_iff] at hx
      rw [hqueue, hx]
      exact List.mem_cons_self
  | sent e content hpoint hhand hdisk hfree hrequests =>
    refine ⟨rfl, rfl, rfl, rfl, List.Subset.refl _, fun x hx => ?_, fun r hr => ?_,
      fun _ => .same⟩
    · rw [hfree] at hx
      cases hx
    · rw [hrequests, List.mem_append, List.mem_singleton] at hr
      exact hr.imp_right fun hr => ⟨e, hhand, by rw [hr]⟩
  | missed e queueRepository hpoint hhand hdisk hfree hrequests hsave =>
    refine ⟨rfl, rfl, rfl, rfl, List.Subset.refl _, fun x hx => ?_,
      fun r hr => .inl (hrequests ▸ hr), fun hc => ?_⟩
    · rw [hfree] at hx
      cases hx
    · rcases hsave with ⟨-, rfl⟩ | ⟨-, rfl⟩
      · exact .same
      · exact .deleted e (.inHand c hc hhand) hdisk

lemma acts_writerFails (h : writerFails c s = some (t, c')) : Acts s c t c' := by
  obtain ⟨rfl, -, -, rfl⟩ := writerFails_eq h
  refine ⟨rfl, rfl, rfl, rfl, List.Subset.refl _, fun x hx => ?_, fun _ hr => .inl hr,
    fun _ => .same⟩
  cases hx

lemma acts_reader {fault : Option Fault} (hids : ∀ x ∈ s.readQueue, x.id = none)
    (h : readerStep fault c s = some (t, c')) :
    Acts s c t c' ∧ c'.writer.weedFSMeta = c.writer.weedFSMeta := by
  cases readerMove_of_step h with
  | moved _ hhand hrequests =>
    exact ⟨acts_same hhand (hrequests ▸ List.Subset.refl _) _ _, hhand⟩
  | handled _ response queue hqueue hhand hrequests =>
    have hid : response.id = none := hids response (by rw [hqueue]; exact List.mem_cons_self)
    have haside := aside_handle fault hid { s with readQueue := queue }
    refine ⟨⟨haside.connections, haside.callers, haside.written, haside.given, ?_,
      fun _ hx => .inl (hhand ▸ hx), fun _ hr => .inl (hrequests ▸ hr), fun _ => ?_⟩, hhand⟩
    · rw [haside.writeQueue]
      exact List.Subset.refl _
    · rw [haside.queueRepository]
      exact .same

/-- Only the writer takes a record into its hand, or out of it; and a channel that is active stays
so until it is closed. -/
lemma acts_act {action : Action} (hids : ∀ x ∈ s.readQueue, x.id = none)
    (h : act capacity action c s = some (t, c')) :
    Acts s c t c' ∧ (¬ OfWriter action → c'.writer.weedFSMeta = c.writer.weedFSMeta) ∧
      (action ≠ .close → c'.active = c.active) := by
  have hactive : c'.stage = c.stage → c'.active = c.active := fun hstage => by
    rw [Connection.active, hstage, Connection.active]
  cases action with
  | writer =>
    exact ⟨acts_writer h, fun hne => (hne trivial).elim, fun _ => hactive (stage_writer h)⟩
  | writerFails =>
    obtain ⟨-, -, -, rfl⟩ := writerFails_eq h
    exact ⟨acts_writerFails h, fun hne => (hne trivial).elim, fun _ => rfl⟩
  | reader fault =>
    obtain ⟨hacts, hhand⟩ := acts_reader hids h
    exact ⟨hacts, fun _ => hhand, fun _ => hactive (stage_reader h)⟩
  | created content =>
    refine ⟨?_, fun _ => hand_created h, fun _ => hactive (stage_created h)⟩
    cases answered_of_created h with
    | unreadable request hrequests _ hhand | queued request hrequests _ _ hhand =>
      exact ⟨rfl, rfl, rfl, rfl, List.Subset.refl _, fun _ hx => .inl (hhand ▸ hx),
        fun _ hr => .inl (hrequests ▸ List.mem_cons_of_mem _ hr), fun _ => .same⟩
  | failed =>
    obtain ⟨request, hrequests, hhand, rfl⟩ := failed_eq h
    exact ⟨acts_same hhand (hrequests ▸ List.subset_cons_self request _) _ _, fun _ => hhand,
      fun _ => hactive (stage_failed h)⟩
  | close =>
    obtain ⟨rfl, rfl⟩ := close_eq h
    refine ⟨acts_same ?_ ?_ _ _, fun _ => rfl, fun hne => absurd rfl hne⟩
    · rfl
    · exact List.Subset.refl _
  | channelInactive =>
    obtain ⟨⟨connected, rfl⟩, hrequests, hhand, hactive'⟩ := channelInactive_eq h
    exact ⟨acts_same hhand (hrequests ▸ List.Subset.refl _) _ _, fun _ => hhand,
      fun _ => hactive'⟩

/-! ### Steps -/

/-- The step is one of a caller. -/
def OfCaller : Event → Prop
  | .caller _ _ => True
  | _ => False

/-- The map, the files and the repositories are touched by callers, and by the reader when it
handles a response. -/
inductive Touches (s : State) : Event → State → Prop
  | leaves {e : Event} {t : State} (hmap : t.weedMetaMap = s.weedMetaMap)
      (hdisk : t.disk = s.disk) (hrepositories : t.repositories = s.repositories)
      (hsaved : t.history.saved = s.history.saved)
      (hhandled : t.history.handled = s.history.handled)
      (hcaller : ¬ OfCaller e) : Touches s e t
  | caller {i : ℕ} {saveFails : Bool} {d d' : Caller} {u : State}
      (hi : s.callers[i]? = some d) (h : CallerMove s saveFails d u d') :
      Touches s (.caller i saveFails) { u with callers := u.callers.set i d' }
  | handled {i : ℕ} {c : Connection} (fault : Option Fault) (response : Item) (queue : List Item)
      (l : List Connection) (hi : s.connections[i]? = some c) (htakes : Takes s c)
      (hqueue : s.readQueue = response :: queue) : Touches s (.on i (.reader fault))
        { handle fault response { s with readQueue := queue } with connections := l }

theorem touches_step (h : step capacity s e = some t) : Touches s e t := by
  cases e with
  | write m =>
    cases h
    exact .leaves rfl rfl rfl rfl rfl id
  | retryPutQueue =>
    cases h
    exact .leaves rfl rfl rfl rfl rfl id
  | caller i saveFails =>
    obtain ⟨d, u, d', hi, hmove, rfl⟩ := caller_eq h
    exact .caller hi hmove
  | channelActive =>
    obtain rfl := channelActive_eq h
    exact .leaves rfl rfl rfl rfl rfl id
  | on i action =>
    obtain ⟨c, u, c', hi, hact, rfl⟩ := on_eq h
    cases action with
    | writer => cases writerMove_of_step hact <;> exact .leaves rfl rfl rfl rfl rfl id
    | writerFails =>
      obtain ⟨rfl, -⟩ := writerFails_eq hact
      exact .leaves rfl rfl rfl rfl rfl id
    | reader fault =>
      cases readerMove_of_step hact with
      | moved => exact .leaves rfl rfl rfl rfl rfl id
      | handled htakes response queue hqueue =>
        exact .handled fault response queue _ hi htakes hqueue
    | created content => cases answered_of_created hact <;> exact .leaves rfl rfl rfl rfl rfl id
    | failed =>
      obtain ⟨request, -, -, rfl⟩ := failed_eq hact
      exact .leaves rfl rfl rfl rfl rfl id
    | close =>
      obtain ⟨rfl, -⟩ := close_eq hact
      exact .leaves rfl rfl rfl rfl rfl id
    | channelInactive =>
      obtain ⟨⟨connected, rfl⟩, -⟩ := channelInactive_eq hact
      exact .leaves rfl rfl rfl rfl rfl id

/-- Only a first call of `write` adds a record. -/
lemma written_step (hids : ∀ x ∈ s.readQueue, x.id = none)
    (h : step capacity s e = some t) : (∃ m, e = .write m ∧
      t.history.written = s.history.written ++ [m]) ∨ t.history.written = s.history.written := by
  cases e with
  | write m =>
    cases h
    exact .inl ⟨m, rfl, rfl⟩
  | retryPutQueue =>
    cases h
    exact .inr rfl
  | caller i saveFails =>
    obtain ⟨d, u, d', hi, hmove, rfl⟩ := caller_eq h
    cases hmove <;> exact .inr rfl
  | channelActive =>
    obtain rfl := channelActive_eq h
    exact .inr rfl
  | on i action =>
    obtain ⟨c, u, c', hi, hact, rfl⟩ := on_eq h
    exact .inr (acts_act hids hact).1.written

/-- No tick has its records still to find. -/
def NoneFinds (s : State) : Prop := ∀ d ∈ s.callers, d.point ≠ .isConnected ∧ d.point ≠ .find

lemma noneFinds_step (hids : ∀ x ∈ s.readQueue, x.id = none) (hs : NoneFinds s)
    (he : e ≠ .retryPutQueue) (h : step capacity s e = some t) : NoneFinds t := by
  cases e with
  | write m =>
    cases h
    intro d hd
    rcases List.mem_append.mp hd with hd | hd
    · exact hs d hd
    · rw [List.mem_singleton.mp hd]
      exact ⟨nofun, nofun⟩
  | retryPutQueue => exact absurd rfl he
  | caller i saveFails =>
    obtain ⟨d, u, d', hi, hmove, rfl⟩ := caller_eq h
    have hcallers : u.callers = s.callers := by cases hmove <;> rfl
    have hd := hs d (List.mem_of_getElem? hi)
    intro d₁ hd₁
    rcases List.mem_or_eq_of_mem_set hd₁ with hd₁ | rfl
    · exact hs d₁ (hcallers ▸ hd₁)
    · cases hmove with
      | looked => exact absurd rfl hd.1
      | found => exact absurd rfl hd.2
      | begun e list given hgiven point hpoint =>
        rcases hpoint with ⟨rfl, -⟩ | ⟨rfl, -⟩ <;> exact ⟨nofun, nofun⟩
      | decided e list point hpoint =>
        rcases hpoint with ⟨rfl, -⟩ | ⟨rfl, -⟩ <;> exact ⟨nofun, nofun⟩
      | queued | mapped | keyless | deleted | saved | unsaved => exact ⟨nofun, nofun⟩
  | channelActive =>
    obtain rfl := channelActive_eq h
    exact hs
  | on i action =>
    obtain ⟨c, u, c', hi, hact, rfl⟩ := on_eq h
    have hcallers := (acts_act hids hact).1.callers
    exact fun d hd => hs d (hcallers ▸ hd)

/-- A caller that takes no step stays as it is. -/
lemma mem_callers_step {d : Caller} (hids : ∀ x ∈ s.readQueue, x.id = none)
    (h : step capacity s e = some t) (hd : d ∈ s.callers)
    (hother : ∀ i saveFails, e = .caller i saveFails → s.callers[i]? ≠ some d) :
    d ∈ t.callers := by
  cases e with
  | write m =>
    cases h
    exact List.mem_append_left _ hd
  | retryPutQueue =>
    cases h
    exact List.mem_append_left _ hd
  | caller i saveFails =>
    obtain ⟨d₁, u, d', hi, hmove, rfl⟩ := caller_eq h
    have hcallers : u.callers = s.callers := by cases hmove <;> rfl
    obtain ⟨j, hj⟩ := List.mem_iff_getElem?.mp hd
    have hij : i ≠ j := fun hij => hother i saveFails rfl (hij ▸ hj)
    refine List.mem_iff_getElem?.mpr ⟨j, ?_⟩
    rw [List.getElem?_set_ne hij, hcallers]
    exact hj
  | channelActive =>
    obtain rfl := channelActive_eq h
    exact hd
  | on i action =>
    obtain ⟨c, u, c', hi, hact, rfl⟩ := on_eq h
    have hcallers := (acts_act hids hact).1.callers
    exact hcallers ▸ hd

/-- A connection that takes no step stays as it is. -/
lemma mem_connections_step (hids : ∀ x ∈ s.readQueue, x.id = none)
    (h : step capacity s e = some t) (hc : c ∈ s.connections)
    (hother : ∀ i action, e = .on i action → s.connections[i]? ≠ some c) :
    c ∈ t.connections := by
  cases e with
  | write m =>
    cases h
    exact hc
  | retryPutQueue =>
    cases h
    exact hc
  | caller i saveFails =>
    obtain ⟨d, u, d', hi, hmove, rfl⟩ := caller_eq h
    cases hmove <;> exact hc
  | channelActive =>
    obtain rfl := channelActive_eq h
    exact List.mem_append_left _ hc
  | on i action =>
    obtain ⟨c₁, u, c', hi, hact, rfl⟩ := on_eq h
    have hconnections := (acts_act hids hact).1.connections
    obtain ⟨j, hj⟩ := List.mem_iff_getElem?.mp hc
    have hij : i ≠ j := fun hij => hother i action rfl (hij ▸ hj)
    refine List.mem_iff_getElem?.mpr ⟨j, ?_⟩
    rw [List.getElem?_set_ne hij, hconnections]
    exact hj

/-- What a step does to the two queues: nothing; a caller puts its record at the end; a writer takes
the first record; the answer to the oldest request is put at the end; a reader handles the first
response. -/
inductive Queues (s : State) : Event → State → Prop
  | same {e : Event} {t : State} (hwrite : t.writeQueue = s.writeQueue)
      (hread : t.readQueue = s.readQueue) : Queues s e t
  | put {i : ℕ} {saveFails : Bool} {t : State} (d : Caller) (x : Item) (hd : d ∈ s.callers)
      (hx : x ∈ d.weedFSMetaList) (hwrite : t.writeQueue = s.writeQueue ++ [x])
      (hread : t.readQueue = s.readQueue)
      (hmap : ∃ d ∈ t.callers, d.point = .map ∧ d.weedFSMetaList.head? = some x) :
      Queues s (.caller i saveFails) t
  | took {i : ℕ} {t : State} (c c' : Connection) (x : Item) (hi : s.connections[i]? = some c)
      (hpolls : Polls c) (hqueue : s.writeQueue = x :: t.writeQueue)
      (hread : t.readQueue = s.readQueue) (hc' : c' ∈ t.connections) (hstage : c'.stage = c.stage)
      (hhand : x ∈ c'.writer.weedFSMeta) : Queues s (.on i .writer) t
  | answered {i : ℕ} {t : State} (c : Connection) (request : Request)
      (object : Option ResponseObject) (hi : s.connections[i]? = some c)
      (hrequest : c.unanswered.head? = some request) (hwrite : t.writeQueue = s.writeQueue)
      (hread : t.readQueue = s.readQueue ++ [⟨none, .createResponse object⟩]) :
      Queues s (.on i (.created (.bytes object))) t
  | handled {i : ℕ} {fault : Option Fault} {t : State} (c : Connection) (response : Item)
      (l : List Connection) (hi : s.connections[i]? = some c) (htakes : Takes s c)
      (hqueue : s.readQueue = response :: t.readQueue) (hwrite : t.writeQueue = s.writeQueue)
      (ht : t = { handle fault response { s with readQueue := t.readQueue } with
        connections := l }) : Queues s (.on i (.reader fault)) t

/-- **What a step does to the queues.** -/
theorem queues_step (hids : ∀ x ∈ s.readQueue, x.id = none) (h : step capacity s e = some t) :
    Queues s e t := by
  cases e with
  | write m =>
    cases h
    exact .same rfl rfl
  | retryPutQueue =>
    cases h
    exact .same rfl rfl
  | caller i saveFails =>
    obtain ⟨d, u, d', hi, hmove, rfl⟩ := caller_eq h
    have hlen : i < s.callers.length := (List.getElem?_eq_some_iff.mp hi).1
    cases hmove with
    | queued x list =>
      exact .put _ x (List.mem_of_getElem? hi) List.mem_cons_self rfl rfl
        ⟨_, List.mem_set hlen _, rfl, rfl⟩
    | looked | found | begun | decided | mapped | keyless | deleted | saved | unsaved =>
      exact .same rfl rfl
  | channelActive =>
    obtain rfl := channelActive_eq h
    exact .same rfl rfl
  | on i action =>
    obtain ⟨c, u, c', hi, hact, rfl⟩ := on_eq h
    have hlen : i < s.connections.length := (List.getElem?_eq_some_iff.mp hi).1
    cases action with
    | writer =>
      have hstage := stage_writer hact
      cases writerMove_of_step hact with
      | moved | sent | missed => exact .same rfl rfl
      | took x queue hqueue hpolls hhand =>
        exact .took c c' x hi hpolls hqueue rfl (List.mem_set hlen c') hstage hhand
    | writerFails =>
      obtain ⟨rfl, -⟩ := writerFails_eq hact
      exact .same rfl rfl
    | reader fault =>
      cases readerMove_of_step hact with
      | moved => exact .same rfl rfl
      | handled htakes response queue hqueue =>
        have hid := hids response (by rw [hqueue]; exact List.mem_cons_self)
        have haside := aside_handle fault hid { s with readQueue := queue }
        exact .handled c response
          ((handle fault response { s with readQueue := queue }).connections.set i c') hi htakes
          (by simp only [hqueue, haside.readQueue]) haside.writeQueue
          (by simp only [haside.readQueue])
    | created content =>
      cases answered_of_created hact with
      | unreadable => exact .same rfl rfl
      | queued request hrequests object hcontent =>
        subst hcontent
        exact .answered c request object hi (by rw [hrequests]; rfl) rfl rfl
    | failed =>
      obtain ⟨request, -, -, rfl⟩ := failed_eq hact
      exact .same rfl rfl
    | close =>
      obtain ⟨rfl, -⟩ := close_eq hact
      exact .same rfl rfl
    | channelInactive =>
      obtain ⟨⟨connected, rfl⟩, -⟩ := channelInactive_eq hact
      exact .same rfl rfl

/-- A response in the queue was there before, or it is the answer to the oldest request. -/
lemma responses_step (hids : ∀ x ∈ s.readQueue, x.id = none)
    (h : step capacity s e = some t) : ∀ x ∈ t.readQueue, x ∈ s.readQueue ∨
      ∃ i c request object, e = .on i (.created (.bytes object)) ∧ s.connections[i]? = some c ∧
        c.unanswered.head? = some request ∧ x = ⟨none, .createResponse object⟩ := by
  intro x hx
  cases queues_step hids h with
  | same _ hread | put _ _ _ _ _ hread | took _ _ _ _ _ _ hread => exact .inl (hread ▸ hx)
  | answered c request object hi hrequest _ hread =>
    rw [hread] at hx
    refine (List.mem_append.mp hx).imp_right fun hx => ?_
    exact ⟨_, c, request, object, rfl, hi, hrequest, List.mem_singleton.mp hx⟩
  | handled _ response _ _ _ hqueue =>
    rw [hqueue]
    exact .inl (List.mem_cons_of_mem response hx)

/-- The responses in the queue have no id. -/
lemma ids_step (hids : ∀ x ∈ s.readQueue, x.id = none) (h : step capacity s e = some t) :
    ∀ x ∈ t.readQueue, x.id = none := by
  intro x hx
  rcases responses_step hids h x hx with hx | ⟨_, _, _, object, -, -, -, rfl⟩
  · exact hids x hx
  · rfl

/-- What is answered with success by its name is named by its response. -/
lemma reports_step (hs : ∀ x ∈ s.readQueue,
    x.id = none ∧ ∃ filename, Reports x.body.responseObject filename) (he : NamesFile s e)
    (h : step capacity s e = some t) : ∀ x ∈ t.readQueue,
      x.id = none ∧ ∃ filename, Reports x.body.responseObject filename := by
  intro x hx
  rcases responses_step (fun x hx => (hs x hx).1) h x hx with
    hx | ⟨i, c, request, object, rfl, hi, hrequest, rfl⟩
  · exact hs x hx
  · obtain ⟨object', hobject, hrep⟩ := he c hi request hrequest
    cases hobject
    exact ⟨rfl, request.filename, hrep⟩

/-- **Where an object comes from**: it was there before, the step is a call of `write` for it, or
a tick has read its document. -/
theorem object_step (hids : ∀ x ∈ s.readQueue, x.id = none) (h : step capacity s e = some t)
    {x : Item} (hx : Object t x) : Object s x ∨ (∃ m, e = .write m ∧ x = ⟨none, m⟩) ∨
      ∃ doc ∈ s.queueRepository.docs, doc.body.status = .STATE_NORMAL ∧ x = doc.entity ∧
        ∃ d ∈ s.callers, d.point = .find := by
  have hadded : ∀ d, t.writeQueue = s.writeQueue → t.callers = s.callers ++ [d] →
      t.connections = s.connections → Object s x ∨ x ∈ d.weedFSMetaList := by
    intro d hqueue hcallers hconnections
    cases hx with
    | queued hx => exact .inl (.queued (hqueue ▸ hx))
    | called d' hd' hx =>
      rw [hcallers, List.mem_append, List.mem_singleton] at hd'
      rcases hd' with hd' | rfl
      · exact .inl (.called d' hd' hx)
      · exact .inr hx
    | inHand c hc hx => exact .inl (.inHand c (hconnections ▸ hc) hx)
  cases e with
  | write m =>
    cases h
    refine (hadded _ rfl rfl rfl).imp_right fun hx => .inl ⟨m, rfl, ?_⟩
    exact List.mem_singleton.mp hx
  | retryPutQueue =>
    cases h
    exact (hadded _ rfl rfl rfl).imp_right fun hx => nomatch hx
  | caller i saveFails =>
    obtain ⟨d, u, d', hi, hmove, rfl⟩ := caller_eq h
    have hd : d ∈ s.callers := List.mem_of_getElem? hi
    have hrest : u.callers = s.callers ∧ u.connections = s.connections := by
      cases hmove <;> exact ⟨rfl, rfl⟩
    cases hx with
    | queued hx =>
      refine .inl ?_
      cases hmove with
      | queued e list =>
        rcases List.mem_append.mp hx with hx | hx
        · exact .queued hx
        · exact .called _ hd (List.mem_singleton.mp hx ▸ List.mem_cons_self)
      | looked | found | begun | decided | mapped | keyless | deleted | saved | unsaved =>
        exact .queued hx
    | called d₁ hd₁ hx =>
      rcases List.mem_or_eq_of_mem_set hd₁ with hd₁ | rfl
      · exact .inl (.called d₁ (hrest.1 ▸ hd₁) hx)
      · refine (hmove.mem_list hx).imp (.called d hd) fun hfound => .inr ?_
        obtain ⟨hpoint, doc, hdoc, hnormal, heq⟩ := hfound
        exact ⟨doc, hdoc, hnormal, heq, d, hd, hpoint⟩
    | inHand c hc hx => exact .inl (.inHand c (hrest.2 ▸ hc) hx)
  | channelActive =>
    obtain rfl := channelActive_eq h
    refine .inl ?_
    cases hx with
    | queued hx => exact .queued hx
    | called d hd hx => exact .called d hd hx
    | inHand c hc hx =>
      rcases List.mem_append.mp hc with hc | hc
      · exact .inHand c hc hx
      · rw [List.mem_singleton.mp hc] at hx
        cases hx
  | on i action =>
    obtain ⟨c, u, c', hi, hact, rfl⟩ := on_eq h
    have hc : c ∈ s.connections := List.mem_of_getElem? hi
    have hacts := (acts_act hids hact).1
    refine .inl ?_
    cases hx with
    | queued hx => exact .queued (hacts.queue hx)
    | called d hd hx => exact .called d (hacts.callers ▸ hd) hx
    | inHand c₁ hc₁ hx =>
      rcases List.mem_or_eq_of_mem_set hc₁ with hc₁ | rfl
      · exact .inHand c₁ (hacts.connections ▸ hc₁) hx
      · exact (hacts.hand x hx).elim (.inHand c hc) .queued

/-- A record comes to the queue from a caller, who is about to put it into the map. -/
lemma queue_step (hids : ∀ x ∈ s.readQueue, x.id = none) (h : step capacity s e = some t)
    {x : Item} (hx : x ∈ t.writeQueue) : x ∈ s.writeQueue ∨
      ∃ d ∈ t.callers, d.point = .map ∧ d.weedFSMetaList.head? = some x := by
  cases queues_step hids h with
  | same hwrite | answered _ _ _ _ _ hwrite | handled _ _ _ _ _ _ hwrite =>
    exact .inl (hwrite ▸ hx)
  | put d y hd hy hwrite _ hmap =>
    rw [hwrite] at hx
    rcases List.mem_append.mp hx with hx | hx
    · exact .inl hx
    · exact .inr (List.mem_singleton.mp hx ▸ hmap)
  | took _ _ y _ _ hqueue =>
    rw [hqueue]
    exact .inl (List.mem_cons_of_mem y hx)

/-- A record comes into the hand of a writer from the queue. -/
lemma inHand_step (hids : ∀ x ∈ s.readQueue, x.id = none) (h : step capacity s e = some t)
    {x : Item} (hc : c ∈ t.connections) (hx : x ∈ c.writer.weedFSMeta) :
    x ∈ s.writeQueue ∨ ∃ c ∈ s.connections, x ∈ c.writer.weedFSMeta := by
  cases e with
  | write m =>
    cases h
    exact .inr ⟨c, hc, hx⟩
  | retryPutQueue =>
    cases h
    exact .inr ⟨c, hc, hx⟩
  | caller i saveFails =>
    obtain ⟨d, u, d', hi, hmove, rfl⟩ := caller_eq h
    cases hmove <;> exact .inr ⟨c, hc, hx⟩
  | channelActive =>
    obtain rfl := channelActive_eq h
    rcases List.mem_append.mp hc with hc | hc
    · exact .inr ⟨c, hc, hx⟩
    · rw [List.mem_singleton.mp hc] at hx
      cases hx
  | on i action =>
    obtain ⟨c₁, u, c', hi, hact, rfl⟩ := on_eq h
    have hacts := (acts_act hids hact).1
    rcases List.mem_or_eq_of_mem_set hc with hc | rfl
    · exact .inr ⟨c, hacts.connections ▸ hc, hx⟩
    · exact (hacts.hand x hx).symm.imp_right fun hx => ⟨c₁, List.mem_of_getElem? hi, hx⟩

/-- A record leaves the queue into the hand of a writer. -/
lemma taken_step (hids : ∀ x ∈ s.readQueue, x.id = none) (h : step capacity s e = some t)
    {x : Item} (hx : x ∈ s.writeQueue) : x ∈ t.writeQueue ∨
      ∃ i c c', e = .on i .writer ∧ s.connections[i]? = some c ∧ Polls c ∧
        s.writeQueue.head? = some x ∧ c' ∈ t.connections ∧ c'.stage = c.stage ∧
          x ∈ c'.writer.weedFSMeta := by
  cases queues_step hids h with
  | same hwrite | answered _ _ _ _ _ hwrite | handled _ _ _ _ _ _ hwrite =>
    exact .inl (hwrite ▸ hx)
  | put _ _ _ _ hwrite =>
    rw [hwrite]
    exact .inl (List.mem_append_left _ hx)
  | took c c' y hi hpolls hqueue _ hc' hstage hhand =>
    rw [hqueue, List.mem_cons] at hx
    rcases hx with rfl | hx
    · exact .inr ⟨_, c, c', rfl, hi, hpolls, by rw [hqueue]; rfl, hc', hstage, hhand⟩
    · exact .inl hx

/-- A response leaves the queue when it is handled. -/
lemma answered_step (hids : ∀ x ∈ s.readQueue, x.id = none) (h : step capacity s e = some t)
    {x : Item} (hx : x ∈ s.readQueue) : x ∈ t.readQueue ∨
      ∃ i fault c queue l, e = .on i (.reader fault) ∧ s.connections[i]? = some c ∧ Takes s c ∧
        s.readQueue = x :: queue ∧
          t = { handle fault x { s with readQueue := queue } with connections := l } := by
  cases queues_step hids h with
  | same _ hread | put _ _ _ _ _ hread | took _ _ _ _ _ _ hread => exact .inl (hread ▸ hx)
  | answered _ _ _ _ _ _ hread =>
    rw [hread]
    exact .inl (List.mem_append_left _ hx)
  | handled c response l hi htakes hqueue _ ht =>
    rw [hqueue, List.mem_cons] at hx
    rcases hx with rfl | hx
    · exact .inr ⟨_, _, c, _, l, rfl, hi, htakes, hqueue, ht⟩
    · exact .inl hx

/-- **What is stored as a document** in a step is an object from before it. -/
theorem stores_step (hids : ∀ x ∈ s.readQueue, x.id = none) (h : step capacity s e = some t) :
    Stores s t.queueRepository := by
  cases e with
  | write m =>
    cases h
    exact .same
  | retryPutQueue =>
    cases h
    exact .same
  | caller i saveFails =>
    obtain ⟨d, u, d', hi, hmove, rfl⟩ := caller_eq h
    have hd : d ∈ s.callers := List.mem_of_getElem? hi
    cases hmove with
    | saved e list => exact .saved e (.called _ hd List.mem_cons_self)
    | looked | found | begun | decided | queued | mapped | keyless | deleted | unsaved =>
      exact .same
  | channelActive =>
    obtain rfl := channelActive_eq h
    exact .same
  | on i action =>
    obtain ⟨c, u, c', hi, hact, rfl⟩ := on_eq h
    exact (acts_act hids hact).1.documents (List.mem_of_getElem? hi)

/-- **What is named** by a request is the file of a record that was in the hand of a writer, and by
a response that of a request. -/
theorem named_step (hids : ∀ x ∈ s.readQueue, x.id = none) (he : NamesNoOther s e)
    (h : step capacity s e = some t) {filename : String} (hx : Named t filename) :
    Named s filename ∨ ∃ c ∈ s.connections, ∃ x ∈ c.writer.weedFSMeta,
      getName x.body.filename = filename := by
  cases hx with
  | answered x hx hrep =>
    refine .inl ?_
    rcases responses_step hids h x hx with
      hx | ⟨i, c, request, object, rfl, hi, hrequest, rfl⟩
    · exact .answered x hx hrep
    · have hname := he c hi request hrequest filename hrep
      exact .sent c (List.mem_of_getElem? hi) request (List.mem_of_mem_head? hrequest) hname.symm
  | sent c hc r hr hname =>
    cases e with
    | write m =>
      cases h
      exact .inl (.sent c hc r hr hname)
    | retryPutQueue =>
      cases h
      exact .inl (.sent c hc r hr hname)
    | caller i saveFails =>
      obtain ⟨d, u, d', hi, hmove, rfl⟩ := caller_eq h
      cases hmove <;> exact .inl (.sent c hc r hr hname)
    | channelActive =>
      obtain rfl := channelActive_eq h
      rcases List.mem_append.mp hc with hc | hc
      · exact .inl (.sent c hc r hr hname)
      · rw [List.mem_singleton.mp hc] at hr
        cases hr
    | on i action =>
      obtain ⟨c₁, u, c', hi, hact, rfl⟩ := on_eq h
      have hc₁ : c₁ ∈ s.connections := List.mem_of_getElem? hi
      have hacts := (acts_act hids hact).1
      rcases List.mem_or_eq_of_mem_set hc with hc | rfl
      · exact .inl (.sent c (hacts.connections ▸ hc) r hr hname)
      · rcases hacts.requests r hr with hr | ⟨x, hx, hfile⟩
        · exact .inl (.sent c₁ hc₁ r hr hname)
        · exact .inr ⟨c₁, hc₁, x, hx, hfile.symm.trans hname⟩

end Logful.WeedFSObjects
