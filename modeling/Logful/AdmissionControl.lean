import Logful.ClientRestController
import Logful.Runs

/-!
The admission of log uploads to the executor that parses them.

An upload looks at the length of the executor's queue first, then receives its file, and only
then submits the task. The queue is asked to have more room than the one place: what is held
back is meant for the uploads that have passed the check as well and are still to submit.

The scheduled ticks, which share the executor, are left out: in the runs here it is given nothing
but the tasks of uploads.
-/

namespace Logful.AdmissionControl

open Logful.ClientRestController Logful.Properties Logful.Runs Logful.StringUtil

/-- How far an upload has come: its file is being received; the file is there, and was checked;
or it was answered, with the task in the executor, or with an error since the queue was too long,
the file broken, or the task rejected. -/
inductive Phase
  | receiving | received | accepted | refused | broken | rejected
  deriving DecidableEq

/-- The executor with its threads, its queue of tasks and the tasks that are run; and the uploads
in the order they came, by which their tasks are called. -/
structure State where
  uploads : List Phase
  threads : ℕ
  running : List ℕ
  queue : List ℕ

def start : State := ⟨[], 0, [], []⟩

/-- An upload comes, and looks at the queue. -/
def check (capacity : ℕ) (s : State) : State :=
  let phase : Phase := if s.queue.length < queueCapacity capacity then .receiving else .refused
  { s with uploads := s.uploads ++ [phase] }

/-- The file was received, or was not. -/
def transfer (i : ℕ) (ok : Bool) (s : State) : Option State :=
  if s.uploads[i]? = some .receiving then
    some { s with uploads := s.uploads.set i (if ok then .received else .broken) }
  else none

/-- `ThreadPoolExecutor.execute`: a new thread while there may be more, then the queue, then
nothing, as there are never more threads than that. -/
def execute (maxThreads capacity task : ℕ) (s : State) : Option State :=
  if s.threads < maxThreads then
    some { s with threads := s.threads + 1, running := s.running ++ [task] }
  else if s.queue.length < capacity then some { s with queue := s.queue ++ [task] }
  else none

def submit (maxThreads capacity i : ℕ) (s : State) : Option State :=
  if s.uploads[i]? = some .received then
    match execute maxThreads capacity i s with
    | some s => some { s with uploads := s.uploads.set i .accepted }
    | none => some { s with uploads := s.uploads.set i .rejected }
  else none

/-- A thread without a task takes one from the queue. -/
def take (s : State) : Option State :=
  match s.queue with
  | [] => none
  | task :: queue =>
    if s.running.length < s.threads then
      some { s with running := s.running ++ [task], queue := queue }
    else none

/-- A thread is done with its task. -/
def finish (task : ℕ) (s : State) : Option State :=
  if task ∈ s.running then some { s with running := s.running.erase task } else none

inductive Event
  | check
  | transfer (i : ℕ) (ok : Bool)
  | submit (i : ℕ)
  | take
  | finish (task : ℕ)
  deriving DecidableEq

def step (maxThreads capacity : ℕ) (s : State) : Event → Option State
  | .check => some (check capacity s)
  | .transfer i ok => transfer i ok s
  | .submit i => submit maxThreads capacity i s
  | .take => take s
  | .finish task => finish task s

/-- The upload has passed the check, and has not submitted its task. -/
def Phase.between (phase : Phase) : Bool := phase = .receiving ∨ phase = .received

def between (s : State) : ℕ := s.uploads.countP Phase.between

/-- When an upload passes the check, there are so many others at most that have passed it and
have not submitted their tasks. -/
def AtMost (k capacity : ℕ) (s : State) (e : Event) : Prop :=
  e = .check → s.queue.length < queueCapacity capacity → between s ≤ k

/-! ### The reserve -/

variable {maxThreads capacity k : ℕ} {s t : State} {e : Event}

/-- What is held back is a part of the queue. -/
lemma queueCapacity_bounds (h : 1 ≤ capacity) :
    1 ≤ queueCapacity capacity ∧ queueCapacity capacity ≤ capacity := by
  have hdiv : (capacity : ℤ).tdiv 32 = capacity / 32 :=
    Int.tdiv_eq_ediv_of_nonneg (Int.natCast_nonneg capacity)
  by_cases hone : (capacity : ℤ) = 1
  · rw [queueCapacity, if_pos hone]
    omega
  · simp only [queueCapacity, if_neg hone, hdiv]
    split_ifs <;> omega

/-- What a change of one upload is for those between their two calls. -/
lemma between_set {i : ℕ} {phase : Phase} (h : s.uploads[i]? = some phase) (phase' : Phase) :
    (s.uploads.set i phase').countP Phase.between + phase.between.toNat =
      between s + phase'.between.toNat := by
  obtain ⟨hi, rfl⟩ := List.getElem?_eq_some_iff.mp h
  have hle := List.boole_getElem_le_countP (p := Phase.between) hi
  rw [List.countP_set hi, between]
  have hite : ∀ b : Bool, (if b then 1 else 0) = b.toNat := by decide
  rw [hite] at hle
  rw [hite, hite]
  omega

/-! ### What the steps do -/

lemma check_passes (h : s.queue.length < queueCapacity capacity) :
    check capacity s = { s with uploads := s.uploads ++ [.receiving] } := by
  simp [check, h]

lemma check_fails (h : ¬ s.queue.length < queueCapacity capacity) :
    check capacity s = { s with uploads := s.uploads ++ [.refused] } := by
  simp [check, h]

/-- `v1UploadLogFile` comes to the submit of its task exactly when the upload passes the check and
its file is received. -/
theorem v1UploadLogFile_eq_submit_iff (env : Env) (load : Load) (properties : LogFileProperties)
    (logFile : MultipartFile) (d : Disk) (hsize : load.queueSize = s.queue.length)
    (hcapacity : load.capacity = capacity) :
    (v1UploadLogFile env load (some properties) logFile d).2 = .submit properties ↔
      (check capacity s).uploads.getLast? = some .receiving ∧
        (receive env logFile env.tempDir (env.tempDir ++ "/" ++ valueOf properties.filename)
          properties.fileSum load.readFails false (.submit properties) d).2 =
            .submit properties := by
  unfold v1UploadLogFile
  by_cases hpass : (s.queue.length : ℤ) < queueCapacity capacity
  · simp [hsize, hcapacity, hpass, check_passes hpass]
  · simp [hsize, hcapacity, hpass, check_fails hpass]

lemma transfer_eq {i : ℕ} {ok : Bool} (h : transfer i ok s = some t) :
    s.uploads[i]? = some .receiving ∧
      t = { s with uploads := s.uploads.set i (if ok then .received else .broken) } := by
  unfold transfer at h
  by_cases hi : s.uploads[i]? = some .receiving
  · rw [if_pos hi] at h
    exact ⟨hi, (Option.some_inj.mp h).symm⟩
  · rw [if_neg hi] at h
    cases h

/-- A submit gives its task to a new thread or to the queue, or is rejected by a full queue. -/
lemma submit_cases {i : ℕ} (h : submit maxThreads capacity i s = some t) :
    s.uploads[i]? = some .received ∧
      ((s.threads < maxThreads ∧ t = ⟨s.uploads.set i .accepted, s.threads + 1,
          s.running ++ [i], s.queue⟩) ∨
        (maxThreads ≤ s.threads ∧ s.queue.length < capacity ∧
          t = ⟨s.uploads.set i .accepted, s.threads, s.running, s.queue ++ [i]⟩) ∨
        (maxThreads ≤ s.threads ∧ capacity ≤ s.queue.length ∧
          t = { s with uploads := s.uploads.set i .rejected })) := by
  unfold submit at h
  split_ifs at h with hi
  refine ⟨hi, ?_⟩
  unfold execute at h
  split_ifs at h with hthreads hroom
  · exact .inl ⟨hthreads, (Option.some_inj.mp h).symm⟩
  · exact .inr (.inl ⟨not_lt.mp hthreads, hroom, (Option.some_inj.mp h).symm⟩)
  · exact .inr (.inr ⟨not_lt.mp hthreads, not_lt.mp hroom, (Option.some_inj.mp h).symm⟩)

lemma take_eq (h : take s = some t) : ∃ task queue, s.queue = task :: queue ∧
    t = { s with running := s.running ++ [task], queue := queue } := by
  unfold take at h
  split at h
  · cases h
  · next task queue hqueue =>
      split_ifs at h
      exact ⟨task, queue, hqueue, (Option.some_inj.mp h).symm⟩

lemma finish_eq {task : ℕ} (h : finish task s = some t) :
    t = { s with running := s.running.erase task } := by
  unfold finish at h
  split_ifs at h
  exact (Option.some_inj.mp h).symm

/-! ### Enough room -/

/-- There is a place in the queue for every upload that has passed the check. -/
structure Inv (capacity : ℕ) (s : State) : Prop where
  room : s.queue.length + between s ≤ capacity
  none_rejected : .rejected ∉ s.uploads

lemma notMem_set {i : ℕ} {phase : Phase} (h : .rejected ∉ s.uploads) (hphase : phase ≠ .rejected) :
    .rejected ∉ s.uploads.set i phase := fun hmem =>
  (List.mem_or_eq_of_mem_set hmem).elim h fun heq => hphase heq.symm

lemma notMem_append {phase : Phase} (h : .rejected ∉ s.uploads) (hphase : phase ≠ .rejected) :
    .rejected ∉ s.uploads ++ [phase] := by
  rw [List.mem_append, List.mem_singleton, not_or]
  exact ⟨h, hphase.symm⟩

/-- **One step.** While at most as many uploads as there are places held back come between the
two calls of another one, there stays a place for every one of them. -/
lemma inv_step (hk : (k : ℤ) ≤ capacity - queueCapacity capacity) (he : AtMost k capacity s e)
    (hs : Inv capacity s) (h : step maxThreads capacity s e = some t) : Inv capacity t := by
  obtain ⟨hroom, hnone⟩ := hs
  cases e with
  | check =>
    cases h
    by_cases hpass : (s.queue.length : ℤ) < queueCapacity capacity
    · have hbetween := he rfl hpass
      rw [check_passes hpass]
      refine ⟨?_, notMem_append hnone (by decide)⟩
      have hcount : (s.uploads ++ [Phase.receiving]).countP Phase.between = between s + 1 := by
        rw [List.countP_append]
        rfl
      change s.queue.length + (s.uploads ++ [Phase.receiving]).countP Phase.between ≤ capacity
      omega
    · rw [check_fails hpass]
      refine ⟨?_, notMem_append hnone (by decide)⟩
      have hcount : (s.uploads ++ [Phase.refused]).countP Phase.between = between s := by
        rw [List.countP_append]
        rfl
      change s.queue.length + (s.uploads ++ [Phase.refused]).countP Phase.between ≤ capacity
      omega
  | transfer i ok =>
    obtain ⟨hi, rfl⟩ := transfer_eq h
    refine ⟨?_, notMem_set hnone (by cases ok <;> decide)⟩
    have hset := between_set hi (if ok then .received else .broken)
    have hle : (if ok then Phase.received else .broken).between.toNat ≤
      Phase.receiving.between.toNat := by cases ok <;> decide
    change s.queue.length + (s.uploads.set i _).countP Phase.between ≤ capacity
    omega
  | submit i =>
    obtain ⟨hi, hcases⟩ := submit_cases h
    have haccepted : (s.uploads.set i .accepted).countP Phase.between + 1 = between s :=
      between_set hi .accepted
    rcases hcases with ⟨-, rfl⟩ | ⟨-, -, rfl⟩ | ⟨-, hfull, rfl⟩
    · refine ⟨?_, notMem_set hnone (by decide)⟩
      change s.queue.length + (s.uploads.set i .accepted).countP Phase.between ≤ capacity
      omega
    · refine ⟨?_, notMem_set hnone (by decide)⟩
      change (s.queue ++ [i]).length + (s.uploads.set i .accepted).countP Phase.between ≤ capacity
      rw [List.length_append, List.length_singleton]
      omega
    · -- the place of the upload itself is free
      omega
  | take =>
    obtain ⟨task, queue, hqueue, rfl⟩ := take_eq h
    refine ⟨?_, hnone⟩
    rw [hqueue, List.length_cons] at hroom
    change queue.length + between s ≤ capacity
    omega
  | finish task =>
    obtain rfl := finish_eq h
    exact ⟨hroom, hnone⟩

/-! ### Too many uploads -/

/-- The state is reached by a run in which not more uploads than that come between. -/
def Reached (maxThreads capacity k : ℕ) (s : State) : Prop :=
  ∃ events, EachStep (step maxThreads capacity) (AtMost k capacity) start events ∧
    run (step maxThreads capacity) start events = some s

lemma Reached.next (hs : Reached maxThreads capacity k s) (he : AtMost k capacity s e)
    (h : step maxThreads capacity s e = some t) : Reached maxThreads capacity k t := by
  obtain ⟨events, heach, hrun⟩ := hs
  refine ⟨events ++ [e], eachStep_append.mpr ⟨heach, fun u hu => ?_⟩, ?_⟩
  · rw [hrun] at hu
    cases hu
    exact ⟨he, fun _ _ => trivial⟩
  · exact (run_append_eq_some _).mpr ⟨s, hrun, by rw [run_cons, h]; rfl⟩

lemma Reached.check (hs : Reached maxThreads capacity k s)
    (hroom : s.queue.length < queueCapacity capacity) (hk : between s ≤ k) :
    ∃ t, Reached maxThreads capacity k t ∧ t.threads = s.threads ∧
      t.queue.length = s.queue.length ∧ between t = between s + 1 := by
  have hcheck : step maxThreads capacity s .check =
      some { s with uploads := s.uploads ++ [Phase.receiving] } :=
    congrArg some (check_passes hroom)
  exact ⟨_, hs.next (fun _ _ => hk) hcheck, rfl, rfl, List.countP_append⟩

/-- Of the uploads between their two calls, one can submit its task. -/
lemma Reached.received (hs : Reached maxThreads capacity k s) (hbetween : 0 < between s) :
    ∃ (t : State) (i : ℕ), Reached maxThreads capacity k t ∧ t.threads = s.threads ∧
      t.queue = s.queue ∧ between t = between s ∧ t.uploads[i]? = some Phase.received := by
  obtain ⟨phase, hmem, hphase⟩ := List.countP_pos_iff.mp hbetween
  obtain ⟨i, hi⟩ := List.mem_iff_getElem?.mp hmem
  cases phase with
  | received => exact ⟨s, i, hs, rfl, rfl, rfl, hi⟩
  | receiving =>
    have htransfer : step maxThreads capacity s (.transfer i true) =
        some { s with uploads := s.uploads.set i .received } := if_pos hi
    refine ⟨_, i, hs.next (fun h => by cases h) htransfer, rfl, rfl, ?_, ?_⟩
    · exact Nat.add_right_cancel (between_set hi .received)
    · exact List.getElem?_set_self (List.getElem?_eq_some_iff.mp hi).1
  | accepted => cases hphase
  | refused => cases hphase
  | broken => cases hphase
  | rejected => cases hphase

lemma Reached.submit (hs : Reached maxThreads capacity k s) (hbetween : 0 < between s) :
    ∃ t, Reached maxThreads capacity k t ∧
      ((s.threads < maxThreads ∧ t.threads = s.threads + 1 ∧ t.queue.length = s.queue.length ∧
          between t + 1 = between s) ∨
        (maxThreads ≤ s.threads ∧ s.queue.length < capacity ∧ t.threads = s.threads ∧
          t.queue.length = s.queue.length + 1 ∧ between t + 1 = between s) ∨
        (maxThreads ≤ s.threads ∧ capacity ≤ s.queue.length ∧ .rejected ∈ t.uploads)) := by
  obtain ⟨u, i, hu, hthreads, hqueue, hcount, hi⟩ := hs.received hbetween
  have hsubmit : ∃ t, step maxThreads capacity u (.submit i) = some t := by
    simp only [step, AdmissionControl.submit, if_pos hi]
    split <;> exact ⟨_, rfl⟩
  obtain ⟨t, ht⟩ := hsubmit
  refine ⟨t, hu.next (fun h => by cases h) ht, ?_⟩
  have haccepted : (u.uploads.set i .accepted).countP Phase.between + 1 = between u :=
    between_set hi .accepted
  rw [← hthreads, ← hqueue, ← hcount]
  obtain ⟨-, ⟨hfree, rfl⟩ | ⟨hbusy, hroom, rfl⟩ | ⟨hbusy, hfull, rfl⟩⟩ := submit_cases ht
  · exact .inl ⟨hfree, rfl, rfl, haccepted⟩
  · exact .inr (.inl ⟨hbusy, hroom, rfl, List.length_append, haccepted⟩)
  · refine .inr (.inr ⟨hbusy, hfull, ?_⟩)
    exact List.mem_set (List.getElem?_eq_some_iff.mp hi).1 _

/-- One upload after the other, until all threads have a task. -/
lemma reached_threads (k : ℕ) (hcapacity : 1 ≤ capacity) {n : ℕ} (hn : n ≤ maxThreads) :
    ∃ t, Reached maxThreads capacity k t ∧ t.threads = n ∧ t.queue.length = 0 ∧
      between t = 0 := by
  induction n with
  | zero => exact ⟨start, ⟨[], trivial, rfl⟩, rfl, rfl, rfl⟩
  | succ n ih =>
    obtain ⟨s, hs, hthreads, hqueue, hbetween⟩ := ih (Nat.le_of_succ_le hn)
    have hbounds := queueCapacity_bounds hcapacity
    obtain ⟨u, hu, huthreads, huqueue, hubetween⟩ := hs.check (by omega) (by omega)
    obtain ⟨t, ht, hcases⟩ := hu.submit (by omega)
    exact ⟨t, ht, by omega⟩

/-- And then, until the queue is as long as the check allows. -/
lemma reached_queue (maxThreads k : ℕ) (hcapacity : 1 ≤ capacity) {n : ℕ}
    (hn : n < queueCapacity capacity) :
    ∃ t, Reached maxThreads capacity k t ∧ t.threads = maxThreads ∧ t.queue.length = n ∧
      between t = 0 := by
  have hbounds := queueCapacity_bounds hcapacity
  induction n with
  | zero => exact reached_threads k hcapacity le_rfl
  | succ n ih =>
    obtain ⟨s, hs, hthreads, hqueue, hbetween⟩ := ih (by omega)
    obtain ⟨u, hu, huthreads, huqueue, hubetween⟩ := hs.check (by omega) (by omega)
    obtain ⟨t, ht, hcases⟩ := hu.submit (by omega)
    exact ⟨t, ht, by omega⟩

/-- Then one more passes the check than there are to be between two calls. -/
lemma reached_between (maxThreads k : ℕ) (hcapacity : 1 ≤ capacity) {n : ℕ} (hn : n ≤ k + 1) :
    ∃ t, Reached maxThreads capacity k t ∧ t.threads = maxThreads ∧
      (t.queue.length : ℤ) + 1 = queueCapacity capacity ∧ between t = n := by
  have hbounds := queueCapacity_bounds hcapacity
  induction n with
  | zero =>
    have hn : ((queueCapacity capacity - 1).toNat : ℤ) < queueCapacity capacity := by omega
    obtain ⟨s, hs, hthreads, hqueue, hbetween⟩ := reached_queue maxThreads k hcapacity hn
    exact ⟨s, hs, hthreads, by omega, hbetween⟩
  | succ n ih =>
    obtain ⟨s, hs, hthreads, hqueue, hbetween⟩ := ih (by omega)
    obtain ⟨t, ht, hcheck⟩ := hs.check (by omega) (by omega)
    exact ⟨t, ht, by omega⟩

/-- And they submit their tasks, until the queue is full. -/
lemma reached_full (maxThreads : ℕ) (hcapacity : 1 ≤ capacity) {n : ℕ} (hn : n ≤ k)
    (hfull : queueCapacity capacity + n ≤ capacity + 1) :
    ∃ t, Reached maxThreads capacity k t ∧ t.threads = maxThreads ∧
      (t.queue.length : ℤ) + 1 = queueCapacity capacity + n ∧ between t + n = k + 1 := by
  induction n with
  | zero =>
    obtain ⟨s, hs, hthreads, hqueue, hbetween⟩ := reached_between maxThreads k hcapacity le_rfl
    exact ⟨s, hs, hthreads, by omega, by omega⟩
  | succ n ih =>
    obtain ⟨s, hs, hthreads, hqueue, hbetween⟩ := ih (by omega) (by omega)
    obtain ⟨t, ht, hcases⟩ := hs.submit (by omega)
    exact ⟨t, ht, by omega⟩

/-! ### Every run -/

/-- **The reserve of the check.** Whatever uploads come, and in whatever order they, the threads
and their tasks go on, no task is rejected, as long as not more than `k` other uploads are
between their check and their submit when one passes the check, exactly when `k` is not more
than what the check holds back of the queue. -/
theorem noneRejected_iff_le (maxThreads capacity k : ℕ) (hcapacity : 1 ≤ capacity) :
    (∀ events s, EachStep (step maxThreads capacity) (AtMost k capacity) start events →
      run (step maxThreads capacity) start events = some s → .rejected ∉ s.uploads) ↔
      (k : ℤ) ≤ capacity - queueCapacity capacity := by
  constructor
  · intro hnone
    by_contra hk
    have hbounds := queueCapacity_bounds hcapacity
    have hn : (capacity + 1 - queueCapacity capacity).toNat ≤ k := by omega
    obtain ⟨s, hs, hthreads, hqueue, hbetween⟩ :=
      reached_full maxThreads hcapacity hn (by omega)
    obtain ⟨t, ⟨events, heach, hrun⟩, hcases⟩ := hs.submit (by omega)
    have hrejected : .rejected ∈ t.uploads := by
      rcases hcases with h | h | h
      · omega
      · omega
      · exact h.2.2
    exact hnone events t heach hrun hrejected
  · intro hk events s heach hrun
    have hstart : Inv capacity start := ⟨Nat.zero_le _, List.not_mem_nil⟩
    have hinv : Inv capacity s :=
      run_invariant_of_eachStep (fun s e t he hs h => inv_step hk he hs h) heach hstart hrun
    exact hinv.none_rejected

theorem noneRejected_iff_le_oneBetween :
    (1 : ℤ) ≤ 32 - queueCapacity 32 ∧
      ∀ events s, EachStep (step 1 32) (AtMost 1 32) start events →
        run (step 1 32) start events = some s → .rejected ∉ s.uploads :=
  ⟨by decide, (noneRejected_iff_le 1 32 1 (by decide)).mpr (by decide)⟩

/-- A queue of one place, and two uploads that pass the check one after the other. -/
theorem not_noneRejected_twoBetween :
    ¬ ∀ maxThreads capacity : ℕ, 1 ≤ capacity → ∀ events s,
      run (step maxThreads capacity) start events = some s → .rejected ∉ s.uploads := by
  intro h
  refine h 1 1 le_rfl [.check, .transfer 0 true, .submit 0, .check, .check, .transfer 1 true,
    .transfer 2 true, .submit 1, .submit 2] _ rfl ?_
  decide

end Logful.AdmissionControl
