import Logful.GraylogRetry
import Logful.LogFileParseTask

/-!
The parse task with the Graylog service as its first sender, in two runs side by side.

The runs differ in what Graylog is: the connection, the cache of layouts and the layouts that
the client has sent. The service throws on a record when it is connected and the layout of the
record is malformed, and when it saves the message instead of sending it and the repository
throws; the text sender comes after it, and is not called then.
-/

namespace Logful.GraylogIsolation

open Logful.Entity Logful.GlobalReference Logful.GraylogClientService Logful.GraylogRetry
open Logful.LogFileParser Logful.LogFileParseTask Logful.ParserFrames Logful.Properties
open Logful.StringUtil Logful.WireFormat

variable {Double : Type}

/-- What a run has of its own: the layouts of the client, the service, with its cache, and,
when the service is called for the `i`-th record, whether it is connected, whether the wait
for its queue is interrupted, and what a `save` would throw. -/
structure Side (Double : Type) where
  layouts : Option String
  layoutMap : LayoutTexts
  connected : ℕ → Bool
  interrupted : ℕ → Bool
  saveFails : ℕ → Option String
  service : Service Double

/-- The task with the layouts of one side. -/
def Side.task (g : Side Double) (t : Task) : Task :=
  { t with properties := { t.properties with layouts := g.layouts, layoutMap := g.layoutMap } }

/-- The task, the service, and the values that `result` was called with. -/
structure State (Double : Type) where
  task : LogFileParseTask.State
  service : Service Double
  results : List Bool

variable (D : Doubles Double) (first : FirstEntry) (sv : Services) (t : Task) (g : Side Double)

/-! ### The task -/

/-- `send` of the service. -/
def sendGraylog (message : LogMessage) (st : State Double) : State Double × Bool :=
  let i := st.task.delivered
  let r := { st.service with connected := g.connected i }.write D first (g.interrupted i)
    (g.saveFails i) ⟨none, message⟩
  ({ st with service := r.1 }, r.2.isSome)

def send (message : LogMessage) : Sender → State Double → State Double × Bool
  | .graylog, st => sendGraylog D first g message st
  | .localFile, st =>
    let r := LogFileParseTask.send sv t message .localFile st.task
    ({ st with task := r.1 }, r.2)

def sendAll (message : LogMessage) : List Sender → State Double → State Double × Bool
  | [], st => (st, false)
  | sender :: l, st =>
    match send D first sv t g message sender st with
    | (st', true) => (st', true)
    | (st', false) => sendAll message l st'

def output (r : LogRecord) (st : State Double) : State Double × Bool :=
  match sendAll D first sv t g (logMessage sv (g.task t) r) (senderList t) st with
  | (st', thrown) =>
    ({ st' with task := { st'.task with delivered := st'.task.delivered + 1 } }, thrown)

def result (successful : Bool) (st : State Double) : State Double × Bool :=
  let r := LogFileParseTask.result sv (g.task t) successful st.task
  ({ st with task := r.1, results := st.results ++ [successful] }, r.2)

def listener : ParserEventListener (State Double) where
  output := output D first sv t g
  result := result sv t g

def start : State Double := ⟨LogFileParseTask.start t, g.service, []⟩

def run : State Double :=
  if t.gzipFails then { start t g with task := moveToErrorDir t (LogFileParseTask.start t) }
  else
    match parse (some (listener D first sv t g)) sv.ciphers (mode t) t.stream (start t g) with
    | (st, true) => { st with task := moveToErrorDir t st.task }
    | (st, false) => st

/-! ### The service as what throws in the task -/

/-- The client has sent a malformed layout for the record. -/
def malformed (r : LogRecord) : Bool := (layoutOf (g.layoutMap.lookup r.layoutId)).toOption.isNone

/-- A GELF message is created of the record. -/
def sendable (r : LogRecord) : Bool := (created D (logMessage sv (g.task t) r)).isSome

/-- The service throws on the `i`-th record: its layout is malformed, or the message is to be
saved, since there is no connection or the wait for the queue is interrupted, and cannot be. -/
def breaks (i : ℕ) (r : LogRecord) : Bool :=
  if g.connected i then
    malformed g r || (sendable D sv t g r && g.interrupted i && (g.saveFails i).isSome)
  else (g.saveFails i).isSome

/-- The task in which that is given beforehand. -/
def oracle : Task :=
  { g.task t with graylogThrows := fun i =>
      (records sv.ciphers (mode t) t.stream)[i]?.any (breaks D sv t g i) }

variable {D first sv t g}

lemma throws_logMessage (r : LogRecord) :
    throws (logMessage sv (g.task t) r) = malformed g r := by
  rw [Bool.eq_iff_iff]
  simp [throws, malformed, logMessage, LogMessage.create, Side.task, LogFileProperties.getLayout]

variable (D g) in
/-- The service throws on a message that it is called with for the `i`-th record. -/
def writeThrows (i : ℕ) (message : LogMessage) : Bool :=
  if g.connected i then
    throws message || ((created D message).isSome && g.interrupted i && (g.saveFails i).isSome)
  else (g.saveFails i).isSome

lemma writeThrows_logMessage (i : ℕ) (r : LogRecord) :
    writeThrows D g i (logMessage sv (g.task t) r) = breaks D sv t g i r := by
  rw [writeThrows, throws_logMessage]
  rfl

variable (D first g) in
lemma sendGraylog_eq (message : LogMessage) (st : State Double) :
    ∃ service, sendGraylog D first g message st =
      ({ st with service := service }, writeThrows D g st.task.delivered message) := by
  refine ⟨_, Prod.ext rfl ?_⟩
  have hthrows := createMessage_error_iff D first st.service.layouts message
  simp only [sendGraylog, Service.write, writeThrows]
  cases g.connected st.task.delivered with
  | false => exact congrArg _ (Service.save_throws _ _ _)
  | true =>
    rcases hc : createMessage D first st.service.layouts message with e | ⟨c, _ | m⟩
    · rw [hc] at hthrows
      simp [hthrows.mp rfl]
    · rw [hc] at hthrows
      have hnot : throws message = false := by simpa [Except.toOption] using hthrows
      simp [hnot, created_of_createMessage hc]
    · rw [hc] at hthrows
      have hnot : throws message = false := by simpa [Except.toOption] using hthrows
      cases g.interrupted st.task.delivered <;>
        simp [hnot, created_of_createMessage hc, Service.save_throws]

variable (sv t) in
lemma send_delivered (message : LogMessage) (sender : Sender) (st : LogFileParseTask.State) :
    (LogFileParseTask.send sv t message sender st).1.delivered = st.delivered := by
  cases sender with
  | graylog => rfl
  | localFile =>
    simp only [LogFileParseTask.send, sendLocal]
    split_ifs <;> rfl

variable (D first) in
/-- The senders, with the service and with what it throws given beforehand. -/
lemma sendAll_task (message : LogMessage) (l : List Sender) (st : State Double)
    (h : (oracle D sv t g).graylogThrows st.task.delivered =
      writeThrows D g st.task.delivered message) :
    ∃ service, sendAll D first sv t g message l st =
      (⟨(LogFileParseTask.sendAll sv (oracle D sv t g) message l st.task).1, service, st.results⟩,
        (LogFileParseTask.sendAll sv (oracle D sv t g) message l st.task).2) := by
  induction l generalizing st with
  | nil => exact ⟨st.service, rfl⟩
  | cons sender l ih =>
    obtain ⟨service, hsend⟩ : ∃ service, send D first sv t g message sender st =
        (⟨(LogFileParseTask.send sv (oracle D sv t g) message sender st.task).1, service,
          st.results⟩, (LogFileParseTask.send sv (oracle D sv t g) message sender st.task).2) := by
      cases sender with
      | graylog =>
        obtain ⟨service, hservice⟩ := sendGraylog_eq D first g message st
        exact ⟨service, hservice.trans (by rw [← h]; rfl)⟩
      | localFile => exact ⟨st.service, rfl⟩
    have hdelivered := send_delivered sv (oracle D sv t g) message sender st.task
    rw [sendAll, LogFileParseTask.sendAll, hsend]
    rcases hnext : LogFileParseTask.send sv (oracle D sv t g) message sender st.task with
      ⟨st', _ | _⟩
    · rw [hnext] at hdelivered
      refine ih ⟨st', service, st.results⟩ ?_
      rw [show st'.delivered = st.task.delivered from hdelivered]
      exact h
    · exact ⟨service, rfl⟩

variable (D first) in
/-- One record, with the service and with what it throws given beforehand. -/
lemma output_task (r : LogRecord) (st : State Double)
    (h : (oracle D sv t g).graylogThrows st.task.delivered =
      breaks D sv t g st.task.delivered r) :
    ∃ service, output D first sv t g r st =
      (⟨(LogFileParseTask.output sv (oracle D sv t g) r st.task).1, service, st.results⟩,
        (LogFileParseTask.output sv (oracle D sv t g) r st.task).2) := by
  obtain ⟨service, hsend⟩ := sendAll_task D first
    (logMessage sv (g.task t) r) (senderList t) st (by rw [h, writeThrows_logMessage])
  refine ⟨service, ?_⟩
  rw [output, hsend]
  rfl

/-- All records, with the service and with what it throws given beforehand. -/
lemma deliverAll_task (rs : List LogRecord) (st : State Double)
    (h : ∀ k r, rs[k]? = some r → (oracle D sv t g).graylogThrows (st.task.delivered + k) =
      breaks D sv t g (st.task.delivered + k) r) :
    ∃ service, deliverAll (some (listener D first sv t g)) rs st =
      (⟨(deliverAll (some (LogFileParseTask.listener sv (oracle D sv t g))) rs st.task).1, service,
        st.results⟩,
        (deliverAll (some (LogFileParseTask.listener sv (oracle D sv t g))) rs st.task).2) := by
  induction rs generalizing st with
  | nil => exact ⟨st.service, rfl⟩
  | cons r rs ih =>
    obtain ⟨service, hout⟩ := output_task D first r st (h 0 r rfl)
    have hdelivered : (LogFileParseTask.output sv (oracle D sv t g) r st.task).1.delivered =
        st.task.delivered + 1 := by
      rw [output_eq]
      split_ifs <;> rfl
    rw [deliverAll, deliverAll, deliver, deliver]
    simp only [listener, LogFileParseTask.listener, hout]
    rw [← listener, ← LogFileParseTask.listener]
    rcases hnext : LogFileParseTask.output sv (oracle D sv t g) r st.task with ⟨st', _ | _⟩
    · refine ih ⟨st', service, st.results⟩ fun k d hk => ?_
      rw [hnext] at hdelivered
      have hrest := h (k + 1) d hk
      rwa [show st.task.delivered + (k + 1) = st'.delivered + k by
        rw [show st'.delivered = st.task.delivered + 1 from hdelivered]; omega] at hrest
    · exact ⟨service, rfl⟩

variable (D first sv t g) in
/-- The records of the file, from the start. -/
lemma deliverAll_start : ∃ service,
    deliverAll (some (listener D first sv t g)) (records sv.ciphers (mode t) t.stream) (start t g) =
      (⟨(deliverAll (some (LogFileParseTask.listener sv (oracle D sv t g)))
          (records sv.ciphers (mode t) t.stream) (LogFileParseTask.start t)).1, service, []⟩,
        (deliverAll (some (LogFileParseTask.listener sv (oracle D sv t g)))
          (records sv.ciphers (mode t) t.stream) (LogFileParseTask.start t)).2) := by
  refine deliverAll_task _ (start t g) fun k r hk => ?_
  have hdelivered : (start t g).task.delivered = 0 := rfl
  rw [hdelivered, Nat.zero_add]
  simp only [oracle, hk, Option.any_some]

/-- What the task reports. -/
def reported (sv : Services) (t : Task) (thrown : Bool) : Bool :=
  thrown || decide ((frames sv.ciphers (mode t) t.stream).2 ≠ .exited (.stop false))

variable (D first sv t g) in
lemma run_task_and_results : (run D first sv t g).task = LogFileParseTask.run sv (oracle D sv t g) ∧
    (run D first sv t g).results = if t.gzipFails then [] else
      [reported sv t (deliverAll (some (LogFileParseTask.listener sv (oracle D sv t g)))
        (records sv.ciphers (mode t) t.stream) (LogFileParseTask.start t)).2] := by
  obtain ⟨service, hd⟩ := deliverAll_start D first sv t g
  have hgzip : (oracle D sv t g).gzipFails = t.gzipFails := rfl
  have hmode : mode (oracle D sv t g) = mode t := rfl
  have hstream : (oracle D sv t g).stream = t.stream := rfl
  have hstart : LogFileParseTask.start (oracle D sv t g) = LogFileParseTask.start t := rfl
  unfold run LogFileParseTask.run
  rw [hgzip]
  split_ifs
  · exact ⟨rfl, rfl⟩
  · rw [parse_eq_report, parse_eq_report, hd, hmode, hstream, hstart]
    rcases deliverAll (some (LogFileParseTask.listener sv (oracle D sv t g)))
      (records sv.ciphers (mode t) t.stream) (LogFileParseTask.start t) with ⟨st', thrown⟩
    have hreport : ∀ b, report (some (listener D first sv t g)) b ⟨st', service, []⟩ =
        (⟨(LogFileParseTask.result sv (oracle D sv t g) b st').1, service, [b]⟩,
          (LogFileParseTask.result sv (oracle D sv t g) b st').2) := fun _ => rfl
    have hreport' : ∀ b, report (some (LogFileParseTask.listener sv (oracle D sv t g))) b st' =
        LogFileParseTask.result sv (oracle D sv t g) b st' := fun _ => rfl
    simp only [hreport, hreport']
    rcases LogFileParseTask.result sv (oracle D sv t g) _ st' with ⟨st'', _ | _⟩ <;>
      exact ⟨rfl, rfl⟩

/-! ### The lines of a run -/

/-- The records that come before the first one on which something throws. -/
def reached (t : Task) : ℕ → List LogRecord → List LogRecord
  | _, [] => []
  | i, r :: rs => if quiet t i then r :: reached t (i + 1) rs else []

lemma deliverAll_buffered (sv : Services) (t : Task) (rs : List LogRecord)
    (st : LogFileParseTask.State) :
    (deliverAll (some (LogFileParseTask.listener sv t)) rs st).1.buffered =
      st.buffered ++ kept sv t st.delivered (reached t st.delivered rs) := by
  induction rs generalizing st with
  | nil => simp [deliverAll, reached, kept]
  | cons r rs ih =>
    have hout := output_eq sv t r st
    rw [deliverAll, deliver, reached]
    simp only [LogFileParseTask.listener]
    cases hq : quiet t st.delivered with
    | false =>
      rw [hq] at hout
      simp [hout, kept]
    | true =>
      rw [if_pos hq] at hout
      simp only [hout]
      rw [← LogFileParseTask.listener, ih]
      simp [kept]

lemma moveToErrorDir_buffered (t : Task) (st : LogFileParseTask.State) :
    (moveToErrorDir t st).buffered = st.buffered := by
  unfold moveToErrorDir
  split_ifs <;> rfl

variable (sv t) in
lemma result_buffered (successful : Bool) (st : LogFileParseTask.State) :
    (LogFileParseTask.result sv t successful st).1.buffered = st.buffered := by
  have hrelease : (release t st).buffered = st.buffered := by
    unfold release
    split_ifs <;> rfl
  have hdelete : ∀ st, (deleteCacheFile t st).buffered = st.buffered := fun st => by
    unfold deleteCacheFile
    split_ifs <;> rfl
  unfold LogFileParseTask.result
  cases successful with
  | false => simp [hdelete, moveToErrorDir_buffered, hrelease]
  | true =>
    rcases t.properties.create sv.parseDate with e | _ | fileMeta
    · exact hrelease
    · simp [hdelete, hrelease]
    · simp only [if_true]
      split_ifs
      · exact hrelease
      · rw [hdelete]
        exact hrelease

/-- What a run of the task leaves in the text sender. -/
lemma run_buffered (sv : Services) (t : Task) : (LogFileParseTask.run sv t).buffered =
    if t.gzipFails then [] else
      kept sv t 0 (reached t 0 (records sv.ciphers (mode t) t.stream)) := by
  have hbuffered := deliverAll_buffered sv t (records sv.ciphers (mode t) t.stream)
    (LogFileParseTask.start t)
  unfold LogFileParseTask.run
  split_ifs
  · exact moveToErrorDir_buffered t _
  · rw [parse_eq_report]
    rcases hd : deliverAll (some (LogFileParseTask.listener sv t))
      (records sv.ciphers (mode t) t.stream) (LogFileParseTask.start t) with ⟨st, thrown⟩
    have hreport : ∀ b, report (some (LogFileParseTask.listener sv t)) b st =
        LogFileParseTask.result sv t b st := fun _ => rfl
    rw [hd] at hbuffered
    simp only [hreport]
    generalize (thrown || decide ((frames sv.ciphers (mode t) t.stream).2 ≠
      .exited (.stop false))) = b
    have hresult := (result_buffered sv t b st).trans hbuffered
    rcases hr : LogFileParseTask.result sv t b st with ⟨st', _ | _⟩
    · rw [hr] at hresult
      exact hresult
    · rw [hr] at hresult
      exact (moveToErrorDir_buffered t st').trans hresult

/-- The lines do not depend on the layouts, nor on what the service throws. -/
lemma kept_oracle (i : ℕ) (rs : List LogRecord) :
    kept sv (oracle D sv t g) i rs = kept sv t i rs := by
  induction rs generalizing i with
  | nil => rfl
  | cons r rs ih =>
    rw [kept, kept, ih]
    rfl

/-- Nothing throws on a record from the `i`-th on, up to the one `k` after it. -/
def QuietTo (u : Task) (i k : ℕ) : Prop := ∀ j ≤ k, quiet u (i + j) = true

lemma quietTo_zero (u : Task) (i : ℕ) : QuietTo u i 0 ↔ quiet u i = true := by
  simp [QuietTo]

lemma quietTo_succ (u : Task) (i k : ℕ) :
    QuietTo u i (k + 1) ↔ quiet u i = true ∧ QuietTo u (i + 1) k := by
  constructor
  · intro h
    refine ⟨h 0 (Nat.zero_le _), fun j hj => ?_⟩
    rw [Nat.add_right_comm, Nat.add_assoc]
    exact h (j + 1) (Nat.succ_le_succ hj)
  · rintro ⟨h0, h⟩ j hj
    rcases j with _ | j
    · exact h0
    · rw [← Nat.add_assoc, Nat.add_right_comm]
      exact h j (Nat.le_of_succ_le_succ hj)

variable (sv t) in
/-- Of the records that are reached, none has a line that is written. -/
lemma kept_reached_eq_nil_iff (u : Task) (i : ℕ) (rs : List LogRecord) :
    kept sv t i (reached u i rs) = [] ↔
      ∀ k < rs.length, t.lineFails (i + k) = false → ¬ QuietTo u i k := by
  induction rs generalizing i with
  | nil => simp [reached, kept]
  | cons r rs ih =>
    rw [List.length_cons, Nat.forall_lt_succ_left]
    cases hq : quiet u i with
    | false =>
      simp [reached, hq, kept, quietTo_zero, quietTo_succ]
    | true =>
      simp only [reached, hq, if_true, kept, List.append_eq_nil_iff, ih, quietTo_zero,
        quietTo_succ, true_and, Nat.add_zero, not_true_eq_false, imp_false]
      refine and_congr ?_ (forall_congr' fun k => forall_congr' fun _ => ?_)
      · cases t.lineFails i <;> simp
      · rw [show i + 1 + k = i + (k + 1) by omega]

/-- Two tasks write the same lines exactly when, of the records whose lines can be written,
the one reaches those that the other does. -/
lemma kept_reached_eq_iff (u v : Task) (i : ℕ) (rs : List LogRecord) :
    kept sv t i (reached u i rs) = kept sv t i (reached v i rs) ↔
      ∀ k < rs.length, t.lineFails (i + k) = false → (QuietTo u i k ↔ QuietTo v i k) := by
  induction rs generalizing i with
  | nil => simp [reached]
  | cons r rs ih =>
    cases hu : quiet u i with
    | false =>
      have hnot : ∀ k, ¬ QuietTo u i k := fun k h => by
        have h0 := h 0 (Nat.zero_le k)
        rw [Nat.add_zero, hu] at h0
        cases h0
      have hnil := kept_reached_eq_nil_iff sv t v i (r :: rs)
      simp only [hnot, false_iff]
      rw [← hnil, reached, hu]
      exact eq_comm
    | true =>
      cases hv : quiet v i with
      | false =>
        have hnot : ∀ k, ¬ QuietTo v i k := fun k h => by
          have h0 := h 0 (Nat.zero_le k)
          rw [Nat.add_zero, hv] at h0
          cases h0
        have hnil := kept_reached_eq_nil_iff sv t u i (r :: rs)
        simp only [hnot, iff_false]
        rw [← hnil, reached, reached, hv]
        rfl
      | true =>
        rw [List.length_cons, Nat.forall_lt_succ_left]
        simp only [reached, hu, hv, if_true, kept, List.append_cancel_left_eq, ih, quietTo_zero,
          quietTo_succ, true_and, Nat.add_zero, implies_true]
        refine forall_congr' fun k => forall_congr' fun _ => ?_
        rw [show i + 1 + k = i + (k + 1) by omega]

/-! ### Two runs -/

/-- The service does not throw on a record up to the `i`-th, or is not called. -/
def Passes (D : Doubles Double) (sv : Services) (t : Task) (g : Side Double) (i : ℕ) : Prop :=
  t.properties.level ≠ VERBOSE →
    ∀ j ≤ i, ∀ r ∈ (records sv.ciphers (mode t) t.stream)[j]?, breaks D sv t g j r = false

/-- Of the records whose lines can be written, those before the first one on which the service
throws are the same on both sides. -/
def SameReach (D : Doubles Double) (sv : Services) (t : Task) (g₁ g₂ : Side Double) : Prop :=
  t.gzipFails = false → t.senderCreated = true →
    ∀ i < (records sv.ciphers (mode t) t.stream).length, t.lineFails i = false →
      (Passes D sv t g₁ i ↔ Passes D sv t g₂ i)

lemma quiet_oracle (j : ℕ) : quiet (oracle D sv t g) j = true ↔ t.senderCreated = true ∧
    (t.properties.level ≠ VERBOSE →
      ∀ r ∈ (records sv.ciphers (mode t) t.stream)[j]?, breaks D sv t g j r = false) := by
  change (t.senderCreated && (t.properties.level == VERBOSE ||
    !(records sv.ciphers (mode t) t.stream)[j]?.any (breaks D sv t g j))) = true ↔ _
  rw [Bool.and_eq_true]
  refine and_congr_right fun _ => ?_
  by_cases hlevel : t.properties.level = VERBOSE
  · simp [hlevel]
  · cases (records sv.ciphers (mode t) t.stream)[j]? <;> simp [hlevel]

lemma quietTo_oracle (i : ℕ) :
    QuietTo (oracle D sv t g) 0 i ↔ t.senderCreated = true ∧ Passes D sv t g i := by
  simp only [QuietTo, Nat.zero_add, quiet_oracle, Passes]
  constructor
  · exact fun h => ⟨(h i le_rfl).1, fun hlevel j hj => (h j hj).2 hlevel⟩
  · exact fun h j hj => ⟨h.1, fun hlevel => h.2 hlevel j hj⟩

/-- **When Graylog cannot change the stored log.** On a file that decodes wholly, the lines that
the text sender writes and the value that `result` is called with are the same on two sides if
and only if, of the records whose lines can be written, those before the first one on which
the service throws are the same. -/
theorem same_iff_sameReach (D : Doubles Double) (first₁ first₂ : FirstEntry) (sv : Services)
    (t : Task) (g₁ g₂ : Side Double) (hdec : Decodes sv t) :
    ((run D first₁ sv t g₁).task.buffered = (run D first₂ sv t g₂).task.buffered ∧
        (run D first₁ sv t g₁).results = (run D first₂ sv t g₂).results) ↔
      SameReach D sv t g₁ g₂ := by
  obtain ⟨htask₁, hresults₁⟩ := run_task_and_results D first₁ sv t g₁
  obtain ⟨htask₂, hresults₂⟩ := run_task_and_results D first₂ sv t g₂
  have hreported : ∀ thrown, reported sv t thrown = true := fun thrown => by
    rw [reported, hdec.2]
    simp
  simp only [hreported] at hresults₁ hresults₂
  rw [hresults₁, hresults₂, and_iff_left rfl, htask₁, htask₂, run_buffered, run_buffered]
  have hgzip : ∀ g : Side Double, (oracle D sv t g).gzipFails = t.gzipFails := fun _ => rfl
  have hmode : ∀ g : Side Double, mode (oracle D sv t g) = mode t := fun _ => rfl
  have hstream : ∀ g : Side Double, (oracle D sv t g).stream = t.stream := fun _ => rfl
  simp only [hgzip, hmode, hstream, kept_oracle, SameReach]
  cases t.gzipFails with
  | true => simp
  | false =>
    simp only [Bool.false_eq_true, if_false, true_imp_iff, kept_reached_eq_iff, Nat.zero_add,
      quietTo_oracle]
    cases t.senderCreated with
    | false => simp
    | true => simp only [true_and, true_imp_iff]

/-! ### Files of well-formed records -/

lemma scan_encode (c : Ciphers) (m : Mode) (rs : List WireRecord)
    (hrs : ∀ r ∈ rs, r.Decrypts c m) (n : ℕ) (hn : (encode rs).length < n) :
    scan c m n ⟨encode rs, false⟩ =
      (rs.map fun r => some (r.record c m), .exited (.stop true)) := by
  induction rs generalizing n with
  | nil =>
    obtain ⟨n, rfl⟩ := Nat.exists_eq_succ_of_ne_zero (Nat.ne_zero_of_lt hn)
    rfl
  | cons r rs ih =>
    obtain ⟨n, rfl⟩ := Nat.exists_eq_succ_of_ne_zero (Nat.ne_zero_of_lt hn)
    have hpos := List.length_pos_iff.mpr (bytes_ne_nil r)
    rw [encode_cons, List.length_append] at hn
    have hrest := ih (fun x hx => hrs x (List.mem_cons_of_mem r hx)) n (by omega)
    rw [encode_cons, scan, frame_whole r (hrs r List.mem_cons_self)]
    simp only [hrest]
    rfl

/-- A file of well-formed records decodes wholly. -/
theorem decodes_encode (rs : List WireRecord)
    (hrs : ∀ r ∈ rs, r.Decrypts sv.ciphers (mode t)) (hs : t.stream = ⟨encode rs, false⟩) :
    Decodes sv t := by
  rw [Decodes, hs, frames, scan_encode _ _ rs hrs _ (Nat.lt_succ_self _)]
  simp

/-- A file of one record, with the layout 1, on which nothing else fails. -/
def plainTask : Task :=
  { oneRecordTask { LogFileProperties.new (sameDigit '0' zero_mem_hexDigits) with
      security := some [] } with stream := ⟨encode [plainRecord], false⟩ }

lemma decodes_plainTask : Decodes plainServices plainTask := by
  refine decodes_encode [plainRecord] (fun r hr => ?_) rfl
  rw [List.mem_singleton.mp hr]
  exact plainRecord_decrypts

/-- A service that is connected or not all the time, and a client with one layout. -/
def oneLayout (connected : Bool) (template : String) : Side Unit where
  layouts := none
  layoutMap := AList.insert 1 template ∅
  connected := fun _ => connected
  interrupted := fun _ => false
  saveFails := fun _ => none
  service := ⟨connected, .empty, [], .empty⟩

/-- A layout that is well-formed, and the service disconnected. -/
theorem same_iff_sameReach_oneLayout :
    (run noDoubles (fun _ => none) plainServices plainTask
          (oneLayout true "a,b,%s")).task.buffered =
        (run noDoubles (fun _ => none) plainServices plainTask (oneLayout false "")).task.buffered ∧
      (run noDoubles (fun _ => none) plainServices plainTask (oneLayout true "a,b,%s")).results =
        (run noDoubles (fun _ => none) plainServices plainTask (oneLayout false "")).results := by
  refine (same_iff_sameReach noDoubles (fun _ => none) (fun _ => none) plainServices plainTask
    (oneLayout true "a,b,%s") (oneLayout false "") decodes_plainTask).mpr fun _ _ i hi _ => ?_
  have hlength : (records plainServices.ciphers (mode plainTask) plainTask.stream).length = 1 := by
    decide
  obtain rfl : i = 0 := by omega
  refine iff_of_true (fun _ j hj r hr => ?_) fun _ _ _ _ _ => rfl
  obtain rfl := Nat.le_zero.mp hj
  cases hr
  decide

/-- Graylog can change the stored log: a malformed layout costs the line while the service is
connected, and not otherwise. -/
theorem not_same_malformed :
    Decodes plainServices plainTask ∧
      (run noDoubles (fun _ => none) plainServices plainTask (oneLayout true "a")).task.buffered =
        [] ∧
      (run noDoubles (fun _ => none) plainServices plainTask (oneLayout false "a")).task.buffered =
        ["1970-01-01 00:00:00.007 [a]: b"] :=
  ⟨decodes_plainTask, by decide, by decide⟩

end Logful.GraylogIsolation
