import Logful.WeedFSRetry

/-!
How many uploads of a file there are at a time, when ticks retry the records of the queue.

A tick reads the records by their status, and nothing marks a record whose upload is under way.
A tick uploads the file of every record once; the next one uploads it once more, whatever has
become of the first upload by then. So the uploads of a file that are outstanding, and those that
were answered before, are as many as the reads of its records at most.
-/

namespace Logful.WeedFSOutstanding

open Logful.Documents Logful.Entity Logful.Paths Logful.Runs Logful.WeedFSClientService
open Logful.WeedFSObjects Logful.WeedFSSteps

variable {capacity : ℕ} {f : String}

/-! ### Reads, requests and refusals -/

/-- The service; the records that the ticks have read; the files that were posted; and those that
were answered with an error. -/
structure State where
  service : WeedFSClientService.State
  read : List Item
  posted : List String
  refused : List String

/-- The records that a tick reads in the step. -/
def found (s : WeedFSClientService.State) : Event → List Item
  | .caller i _ =>
    if s.callers[i]?.map Caller.point = some .find then
      (findAllNotWriteLimit s.queueRepository PAGE_LIMIT).map Document.entity
    else []
  | _ => []

def fileNames (l : List Item) : List String := l.map fun e => getName e.body.filename

/-- The file that the writer of the connection posts. -/
def postedBy (disk : Disk) (c : Connection) : Action → List String
  | .writer =>
    if c.writer.point = .send then
      fileNames (c.writer.weedFSMeta.toList.filter fun e => (disk e.body.filename).isSome)
    else []
  | _ => []

/-- The file that the connection is told an error of. -/
def refusedBy (c : Connection) : Action → List String
  | .failed => (c.unanswered.take 1).map Request.filename
  | _ => []

def ofConnection (files : Connection → Action → List String) (s : WeedFSClientService.State) :
    Event → List String
  | .on i action => (s.connections[i]?.map fun c => files c action).getD []
  | _ => []

def step (capacity : ℕ) (s : State) (e : Event) : Option State :=
  (WeedFSClientService.step capacity s.service e).map fun service => {
    service := service
    read := s.read ++ found s.service e
    posted := s.posted ++ ofConnection (postedBy s.service.disk) s.service e
    refused := s.refused ++ ofConnection refusedBy s.service e }

/-- The service with records in its queue, before its first connection. -/
def start (records : Collection ObjectId WeedFSMeta) (repositories : Repositories)
    (disk : Disk) : State :=
  ⟨WeedFSClientService.start records repositories disk, [], [], []⟩

/-- The records are those of the queue. -/
def Retries : Event → Prop
  | .write _ => False
  | _ => True

/-! ### Uploads of a file -/

def inHand (f : String) (c : Connection) : ℕ := (fileNames c.writer.weedFSMeta.toList).count f

def unanswered (f : String) (c : Connection) : ℕ := (c.unanswered.map Request.filename).count f

def answered (f : String) (l : List Item) : ℕ :=
  l.countP fun e => Reports e.body.responseObject f

/-- The uploads that are outstanding: of the records in the queue and in the hand of a writer,
sent and without an answer, answered and not handled. -/
def outstanding (s : State) (f : String) : ℕ :=
  (fileNames s.service.writeQueue).count f + (s.service.connections.map (inHand f)).sum +
    ((s.service.connections.map (unanswered f)).sum + answered f s.service.readQueue)

/-- The uploads that are over: their responses were handled, or are errors. -/
def processed (s : State) (f : String) : ℕ :=
  s.service.history.handled.count f + s.refused.count f

/-- How often a record of the file was read by a tick. -/
def reads (s : State) (f : String) : ℕ := (fileNames s.read).count f

/-- The records that a caller has still to put into the queue. -/
def ahead (f : String) (d : Caller) : ℕ :=
  (fileNames (if d.point = .map then d.weedFSMetaList.tail else d.weedFSMetaList)).count f

/-! ### Counting -/

lemma ahead_nil (point : CallPoint) : ahead f ⟨point, []⟩ = 0 := by
  simp [ahead, fileNames]

lemma ahead_map (e : Item) (list : List Item) :
    ahead f ⟨.map, e :: list⟩ = (fileNames list).count f := by
  rw [ahead, if_pos rfl, List.tail_cons]

lemma ahead_of_ne {point : CallPoint} (h : point ≠ .map) (list : List Item) :
    ahead f ⟨point, list⟩ = (fileNames list).count f := by
  rw [ahead, if_neg h]

lemma count_fileNames_append (l l' : List Item) :
    (fileNames (l ++ l')).count f = (fileNames l).count f + (fileNames l').count f := by
  rw [fileNames, List.map_append, List.count_append]
  rfl

lemma count_fileNames_cons (e : Item) (l : List Item) :
    (fileNames (e :: l)).count f = (fileNames [e]).count f + (fileNames l).count f :=
  count_fileNames_append [e] l

lemma answered_append (l l' : List Item) : answered f (l ++ l') = answered f l + answered f l' :=
  List.countP_append

lemma answered_cons (e : Item) (l : List Item) :
    answered f (e :: l) = answered f [e] + answered f l :=
  answered_append [e] l

lemma answered_singleton_of_not {e : Item} (h : ¬ Reports e.body.responseObject f) :
    answered f [e] = 0 := by
  simp [answered, h]

/-- What the handling of a response adds to the files that were handled. -/
lemma count_handled_handle {fault : Option Fault} {response : Item} (hid : response.id = none)
    (s : WeedFSClientService.State) :
    (handle fault response s).history.handled.count f =
      s.history.handled.count f + answered f [response] := by
  by_cases hrep : ∃ filename, Reports response.body.responseObject filename
  · obtain ⟨filename, hrep⟩ := hrep
    have hcount : answered f [response] = [filename].count f := by
      by_cases hname : filename = f
      · subst hname
        simp [answered, hrep]
      · rw [answered_singleton_of_not fun h => hname (hrep.filename_eq h),
          List.count_singleton, if_neg (by simpa using hname)]
    obtain ⟨fid, size, url, hobject⟩ := hrep
    have hmove := handled_of_handle fault hid hobject s
    rw [hcount, ← List.count_append]
    generalize handle fault response s = t at hmove ⊢
    cases hmove <;> rfl
  · rw [handle_silent fault hrep, answered_singleton_of_not fun h => hrep ⟨f, h⟩]
    rfl

/-! ### What a step does to the uploads -/

/-- An upload is passed on by what holds it, or it is over: as a request at first, and then as an
answer. -/
structure Passes (s : WeedFSClientService.State) (e : Event) (t : WeedFSClientService.State)
    (f : String) : Prop where
  requests : (t.callers.map (ahead f)).sum + (fileNames t.writeQueue).count f +
      (t.connections.map (inHand f)).sum + (ofConnection (postedBy s.disk) s e).count f ≤
    (s.callers.map (ahead f)).sum + (fileNames s.writeQueue).count f +
      (s.connections.map (inHand f)).sum + (fileNames (found s e)).count f
  answers : (t.connections.map (unanswered f)).sum + answered f t.readQueue +
      t.history.handled.count f + (ofConnection refusedBy s e).count f ≤
    (s.connections.map (unanswered f)).sum + answered f s.readQueue +
      s.history.handled.count f + (ofConnection (postedBy s.disk) s e).count f

variable {s t : WeedFSClientService.State} {c c' : Connection}

lemma passes_caller {i : ℕ} {saveFails : Bool}
    (h : WeedFSClientService.step capacity s (.caller i saveFails) = some t) :
    Passes s (.caller i saveFails) t f := by
  obtain ⟨d, u, d', hi, hmove, rfl⟩ := caller_eq h
  have hset := sum_map_set_add (ahead f) d' hi
  have hsame : u.callers = s.callers ∧ u.connections = s.connections ∧
      u.readQueue = s.readQueue ∧ u.history.handled = s.history.handled := by
    cases hmove <;> exact ⟨rfl, rfl, rfl, rfl⟩
  obtain ⟨hcallers, hconnections, hqueue, hhandled⟩ := hsame
  -- the caller passes on what it puts into the queue, and is given what it finds
  have hpassed : ahead f d' + (fileNames u.writeQueue).count f ≤
      ahead f d + (fileNames s.writeQueue).count f +
        (fileNames (found s (.caller i saveFails))).count f := by
    cases hmove with
    | looked | keyless | unsaved =>
      rw [ahead_nil]
      omega
    | found list =>
      have hfound : found s (.caller i saveFails) =
          (findAllNotWriteLimit s.queueRepository PAGE_LIMIT).map Document.entity :=
        if_pos (by rw [hi]; rfl)
      rw [hfound, ahead_of_ne (by decide)]
      omega
    | begun e list given hgiven point hpoint =>
      rcases hpoint with ⟨rfl, -⟩ | ⟨rfl, -⟩ <;> simp [ahead]
    | decided e list point hpoint =>
      rcases hpoint with ⟨rfl, -⟩ | ⟨rfl, -⟩ <;> simp [ahead]
    | queued e list =>
      have hunput : ahead f ⟨.queue, e :: list⟩ = (fileNames (e :: list)).count f :=
        ahead_of_ne (by decide) _
      rw [hunput, ahead_map, count_fileNames_append, count_fileNames_cons e list]
      omega
    | mapped => simp [ahead]
    | deleted e list | saved e list =>
      rw [ahead_of_ne (by decide), ahead_of_ne (by decide), count_fileNames_cons e list]
      dsimp only
      omega
  constructor
  · simp only [ofConnection, hcallers, hconnections, List.count_nil]
    omega
  · simp only [ofConnection, hconnections, hqueue, hhandled, List.count_nil]
    exact le_rfl

/-- What an action of a connection does to the uploads that it holds, and to those that it takes
from a queue, or puts into one. -/
structure Hands (s : WeedFSClientService.State) (c : Connection) (action : Action)
    (t : WeedFSClientService.State) (c' : Connection) (f : String) : Prop where
  requests : (fileNames t.writeQueue).count f + inHand f c' +
      (postedBy s.disk c action).count f ≤ (fileNames s.writeQueue).count f + inHand f c
  answers : unanswered f c' + answered f t.readQueue + t.history.handled.count f +
      (refusedBy c action).count f ≤ unanswered f c + answered f s.readQueue +
        s.history.handled.count f + (postedBy s.disk c action).count f

lemma hands_writer (h : writerStep c s = some (t, c')) : Hands s c .writer t c' f := by
  cases writerMove_of_step h with
  | moved hhand hrequests hpoint =>
    constructor <;> simp [postedBy, refusedBy, hpoint, inHand, unanswered, hhand, hrequests]
  | took e queue hqueue hpolls hhand hrequests =>
    have hpoint : c.writer.point ≠ .send := by rw [hpolls.1]; nofun
    constructor
    · simp only [postedBy, hpoint, if_false, inHand, hhand, hqueue, hpolls.2.2,
        count_fileNames_cons e queue, Option.toList_some, Option.toList_none, List.count_nil]
      omega
    · simp [postedBy, refusedBy, hpoint, unanswered, hrequests]
  | sent e content hpoint hhand hdisk hfree hrequests =>
    have hposted : postedBy s.disk c .writer = fileNames [e] := by
      simp [postedBy, hpoint, hhand, hdisk]
    constructor
    · rw [hposted, inHand, inHand, hfree, hhand]
      simp [fileNames]
    · simp only [hposted, refusedBy, unanswered, hrequests, List.map_append, List.count_append,
        List.count_nil, fileNames, List.map_cons, List.map_nil]
      omega
  | missed e queueRepository hpoint hhand hdisk hfree hrequests =>
    have hposted : postedBy s.disk c .writer = [] := by
      simp [postedBy, hpoint, hhand, hdisk, fileNames]
    constructor <;> simp [hposted, refusedBy, inHand, hfree, unanswered, hrequests, fileNames]

lemma hands_reader {fault : Option Fault} (hids : ∀ x ∈ s.readQueue, x.id = none)
    (h : readerStep fault c s = some (t, c')) : Hands s c (.reader fault) t c' f := by
  cases readerMove_of_step h with
  | moved _ hhand hrequests =>
    constructor <;> simp [postedBy, refusedBy, inHand, unanswered, hhand, hrequests]
  | handled _ response queue hqueue hhand hrequests =>
    have hid : response.id = none := hids response (by rw [hqueue]; exact List.mem_cons_self)
    have haside := aside_handle fault hid { s with readQueue := queue }
    constructor
    · simp [postedBy, inHand, hhand, haside.writeQueue]
    · simp only [postedBy, refusedBy, unanswered, hrequests, haside.readQueue,
        count_handled_handle hid, hqueue, answered_cons response queue, List.count_nil]
      omega

lemma hands_created {i : ℕ} {content : Content} (hi : s.connections[i]? = some c)
    (he : NamesNoOther s (.on i (.created content)))
    (h : created capacity content c s = some (t, c')) : Hands s c (.created content) t c' f := by
  cases answered_of_created h with
  | unreadable request hrequests hcontent hhand =>
    constructor
    · simp [postedBy, inHand, hhand]
    · simp only [postedBy, refusedBy, unanswered, hrequests, List.map_cons, List.count_cons,
        List.count_nil]
      omega
  | queued request hrequests object hcontent hhand =>
    subst hcontent
    constructor
    · simp [postedBy, inHand, hhand]
    · -- the answer stands for the request that it answers
      have hanswers : answered f [⟨none, .createResponse object⟩] ≤ [request.filename].count f := by
        by_cases hrep : Reports object f
        · rw [he c hi request (by rw [hrequests]; rfl) f hrep, List.count_singleton_self]
          exact List.countP_le_length
        · rw [answered_singleton_of_not hrep]
          exact Nat.zero_le _
      simp only [postedBy, refusedBy, unanswered, hrequests, List.map_cons, answered_append,
        List.count_cons, List.count_nil] at hanswers ⊢
      omega

lemma hands_act {i : ℕ} {action : Action} (hids : ∀ x ∈ s.readQueue, x.id = none)
    (hi : s.connections[i]? = some c) (he : NamesNoOther s (.on i action))
    (h : act capacity action c s = some (t, c')) : Hands s c action t c' f := by
  cases action with
  | writer => exact hands_writer h
  | writerFails =>
    obtain ⟨rfl, -, -, rfl⟩ := writerFails_eq h
    constructor <;> simp [postedBy, refusedBy, inHand, unanswered, fileNames]
  | reader fault => exact hands_reader hids h
  | created content => exact hands_created hi he h
  | failed =>
    obtain ⟨request, hrequests, hhand, rfl⟩ := failed_eq h
    constructor
    · simp [postedBy, inHand, hhand]
    · simp only [postedBy, refusedBy, unanswered, hrequests, List.map_cons, List.take_succ_cons,
        List.take_zero, List.map_nil, List.count_cons, List.count_nil]
      omega
  | close =>
    obtain ⟨rfl, rfl⟩ := close_eq h
    constructor <;> simp [postedBy, refusedBy, inHand, unanswered]
  | channelInactive =>
    obtain ⟨⟨connected, rfl⟩, hrequests, hhand, -⟩ := channelInactive_eq h
    constructor <;> simp [postedBy, refusedBy, inHand, unanswered, hrequests, hhand]

/-- **Every step passes the uploads on.** -/
lemma passes_step {e : Event} (hids : ∀ x ∈ s.readQueue, x.id = none) (hretries : Retries e)
    (he : NamesNoOther s e) (h : WeedFSClientService.step capacity s e = some t) :
    Passes s e t f := by
  cases e with
  | write m => exact hretries.elim
  | retryPutQueue =>
    cases h
    constructor <;> simp [retryPutQueue, found, ofConnection, ahead, fileNames]
  | caller i saveFails => exact passes_caller h
  | channelActive =>
    obtain rfl := channelActive_eq h
    constructor <;>
      simp [found, ofConnection, newConnection, inHand, unanswered, fileNames]
  | on i action =>
    obtain ⟨c, u, c', hi, hact, rfl⟩ := on_eq h
    have hhands := hands_act (f := f) hids hi he hact
    have hacts := (acts_act hids hact).1
    have hconnections := hacts.connections
    have hhand := sum_map_set_add (inHand f) c' hi
    have hrequests := sum_map_set_add (unanswered f) c' hi
    have hof : ∀ files : Connection → Action → List String,
        ofConnection files s (.on i action) = files c action := by
      intro files
      rw [ofConnection, hi]
      rfl
    constructor
    · have hrequests := hhands.requests
      simp only [hof, hacts.callers, hconnections, found]
      omega
    · have hanswers := hhands.answers
      simp only [hof, hconnections]
      omega

/-! ### Every run -/

/-- What is begun is counted by the reads, and what is posted by the requests that are answered, or
are not. -/
structure Counts (s : State) : Prop where
  responses : ∀ e ∈ s.service.readQueue, e.id = none
  requests : ∀ f, (s.service.callers.map (ahead f)).sum +
    (fileNames s.service.writeQueue).count f + (s.service.connections.map (inHand f)).sum +
      s.posted.count f ≤ reads s f
  answers : ∀ f, (s.service.connections.map (unanswered f)).sum +
    answered f s.service.readQueue + s.service.history.handled.count f + s.refused.count f ≤
      s.posted.count f

lemma counts_start (records : Collection ObjectId WeedFSMeta) (repositories : Repositories)
    (disk : Disk) : Counts (start records repositories disk) := by
  constructor <;> simp [start, WeedFSClientService.start, fileNames, answered]

lemma counts_step {s t : State} {e : Event} (hs : Counts s)
    (he : Retries e ∧ NamesNoOther s.service e) (h : step capacity s e = some t) : Counts t := by
  obtain ⟨service, hservice, rfl⟩ := Option.map_eq_some_iff.mp h
  refine ⟨ids_step hs.responses hservice, fun f => ?_, fun f => ?_⟩
  · have hpasses := (passes_step (f := f) hs.responses he.1 he.2 hservice).requests
    have hold := hs.requests f
    simp only [reads, count_fileNames_append, List.count_append] at hold ⊢
    omega
  · have hpasses := (passes_step (f := f) hs.responses he.1 he.2 hservice).answers
    have hold := hs.answers f
    simp only [List.count_append]
    omega

/-- **How many uploads of a file there are.** In a run of ticks that retry the records of the
queue, of steps of the threads, and of connections that are made, answer and are closed, the
uploads of a file that are outstanding and those that were processed are together as many as the
reads of its records by ticks at most; and so are the requests that were made for it. -/
theorem outstanding_le_reads (records : Collection ObjectId WeedFSMeta)
    (repositories : Repositories) (disk : Disk) (l : List Event) (s : State)
    (hl : EachStep (step capacity) (fun s e => Retries e ∧ NamesNoOther s.service e)
      (start records repositories disk) l)
    (h : run (step capacity) (start records repositories disk) l = some s) (f : String) :
    outstanding s f + processed s f ≤ reads s f ∧ s.posted.count f ≤ reads s f := by
  have hs : Counts s := run_invariant_of_eachStep (fun _ _ _ he hs h => counts_step hs he h) hl
    (counts_start records repositories disk) h
  have hrequests := hs.requests f
  have hanswers := hs.answers f
  rw [outstanding, processed]
  constructor <;> omega

/-- The record is read again when its response has been handled. -/
def readAgain : List Event :=
  .channelActive :: WeedFSRetry.answered ++ List.replicate 2 (.on 0 (.reader none)) ++
    WeedFSRetry.tick 1

theorem outstanding_le_reads_readAgain :
    ∃ s, run (step 8) (start WeedFSRetry.oneRecord noRepositories twoFiles) readAgain = some s ∧
      outstanding s "a.txt" + processed s "a.txt" ≤ reads s "a.txt" ∧
      s.posted.count "a.txt" ≤ reads s "a.txt" := by
  obtain ⟨s, hs⟩ := Option.isSome_iff_exists.mp (show (run (step 8)
    (start WeedFSRetry.oneRecord noRepositories twoFiles) readAgain).isSome by decide)
  refine ⟨s, hs, outstanding_le_reads WeedFSRetry.oneRecord noRepositories twoFiles readAgain s ?_
    hs "a.txt"⟩
  iterate 13 refine eachStep_cons ⟨trivial, trivial⟩ rfl ?_
  refine eachStep_cons ⟨trivial, ?_⟩ rfl ?_
  · intro c hc request hrequest filename hrep
    cases hc
    cases hrequest
    exact hrep.filename_eq ⟨_, _, _, rfl⟩
  · iterate 9 refine eachStep_cons ⟨trivial, trivial⟩ rfl ?_
    trivial

/-- The record is read by two ticks, and its file posted twice, before the first answer. -/
def postedTwice : List Event :=
  .channelActive :: WeedFSRetry.tick 0 ++ WeedFSRetry.tick 1 ++ List.replicate 10 (.on 0 .writer)

/-- Retrying may upload a file twice: two ticks post it before its answer. -/
theorem not_outstanding_le_one :
    ∃ s, run (step 8) (start WeedFSRetry.oneRecord noRepositories twoFiles) postedTwice = some s ∧
      EachStep (step 8) (fun s e => Retries e ∧ NamesNoOther s.service e)
        (start WeedFSRetry.oneRecord noRepositories twoFiles) postedTwice ∧
      s.posted = ["a.txt", "a.txt"] ∧ processed s "a.txt" = 0 ∧
      ¬ outstanding s "a.txt" ≤ 1 := by
  obtain ⟨s, hs⟩ := Option.isSome_iff_exists.mp (show (run (step 8)
    (start WeedFSRetry.oneRecord noRepositories twoFiles) postedTwice).isSome by decide)
  refine ⟨s, hs, eachStep_of_forall_mem ?_ _, ?_, ?_, ?_⟩
  · simp [postedTwice, WeedFSRetry.tick, Retries, NamesNoOther]
  · exact eq_of_map_run hs (·.posted) ["a.txt", "a.txt"] (by decide)
  · exact eq_of_map_run hs (processed · "a.txt") 0 (by decide)
  · rw [eq_of_map_run hs (outstanding · "a.txt") 2 (by decide)]
    decide

end Logful.WeedFSOutstanding
