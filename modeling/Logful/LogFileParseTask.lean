import Logful.ClientRestController
import Logful.ParserFrames
import Logful.WireFormat

/-!
`LogFileParseTask`, with its `LocalFileSender`.

What may fail in a run is given with the task: the header of the compressed file, a sender,
a line of the text file, its release, the hand-over of its record, the move and the deletion
of the cache file. The state is the cache file, the text file, and the hand-overs, each with
the lines that the text file had then.
-/

namespace Logful.LogFileParseTask

open Logful.BigEndian Logful.ClientRestController Logful.Entity Logful.LogFileParser
open Logful.ParserFrames Logful.Properties Logful.StringUtil Logful.WireFormat

/-- The calls of other libraries: digests and lower case for attachment keys, dates printed
and parsed, and the ciphers. -/
structure Services where
  md5Hex : String → String
  toLowerCase : String → String
  timeString : ℤ → String
  parseDate : String → Option ℤ
  ciphers : Ciphers

/-- A task, and what fails in its run. Senders and lines are counted by the records that were
delivered before. -/
structure Task where
  properties : LogFileProperties
  stream : InputStream
  gzipFails : Bool
  senderCreated : Bool
  graylogThrows : ℕ → Bool
  lineFails : ℕ → Bool
  /-- How many lines reach the file when its release fails. -/
  releaseFails : Option ℕ
  writeThrows : Bool
  moveFails : Bool
  deleteFails : Bool

structure State where
  inTempDir : Bool
  inErrorDir : Bool
  delivered : ℕ
  buffered : List String
  text : Option (List String)
  writes : List (WeedFSMeta × Option (List String))

variable (sv : Services) (t : Task)

/-! ### LocalFileSender -/

/-- The line of a message. -/
def line (message : LogMessage) : String :=
  let s := sv.timeString message.timestamp ++ " [" ++ valueOf message.tag ++ "]: " ++
    valueOf message.message
  if isEmpty message.attachment then s
  else s ++ " attachment<<" ++ valueOf message.attachment ++ ">>"

/-- `send`, which swallows an `IOException`. -/
def sendLocal (message : LogMessage) (st : State) : State :=
  if t.lineFails st.delivered then st
  else { st with buffered := st.buffered ++ [line sv message] }

/-- `release`: the lines that were not written before reach the file now. -/
def release (st : State) : State :=
  if t.senderCreated then
    { st with text := some (match t.releaseFails with
        | none => st.buffered
        | some n => st.buffered.take n) }
  else st

/-! ### LogFileParseTask -/

inductive Sender
  | graylog | localFile
  deriving DecidableEq

/-- The senders, in the order of the list. Messages of the level verbose are not sent to
Graylog. -/
def senderList : List Sender :=
  if t.properties.level ≠ VERBOSE then [.graylog, .localFile] else [.localFile]

/-- One sender; the second is null when it was not created, and calling it throws. -/
def send (message : LogMessage) : Sender → State → State × Bool
  | .graylog, st => (st, t.graylogThrows st.delivered)
  | .localFile, st => if t.senderCreated then (sendLocal sv t message st, false) else (st, true)

/-- The senders one after another, up to one that throws. -/
def sendAll (message : LogMessage) : List Sender → State → State × Bool
  | [], st => (st, false)
  | sender :: l, st =>
    match send sv t message sender st with
    | (st', true) => (st', true)
    | (st', false) => sendAll message l st'

/-- The message that is made of a record. -/
def logMessage (r : LogRecord) : LogMessage :=
  let p := t.properties
  let attachment :=
    if r.attachmentId ≠ -1 then
      some (attachmentKey sv.md5Hex sv.toLowerCase p.platform (valueOf p.uid) (valueOf p.appId)
        (toString r.attachmentId))
    else none
  .create p.platform p.uid p.appId p.loggerName (p.getLayout r.layoutId) p.level r.timestamp
    (some r.tag) (some r.msg) p.userAlias attachment

def output (r : LogRecord) (st : State) : State × Bool :=
  match sendAll sv t (logMessage sv t r) (senderList t) st with
  | (st', thrown) => ({ st' with delivered := st'.delivered + 1 }, thrown)

/-- `moveToErrorDir`, which swallows an `IOException`. -/
def moveToErrorDir (st : State) : State :=
  if t.moveFails || !st.inTempDir then st else { st with inTempDir := false, inErrorDir := true }

/-- `deleteQuietly` of the cache file. -/
def deleteCacheFile (st : State) : State :=
  if t.deleteFails then st else { st with inTempDir := false }

def result (successful : Bool) (st : State) : State × Bool :=
  let st := release t st
  if successful then
    match t.properties.create sv.parseDate with
    | .error _ => (st, true)
    | .ok none => (deleteCacheFile t st, false)
    | .ok (some fileMeta) =>
      let st := { st with writes := st.writes ++ [(fileMeta, st.text)] }
      if t.writeThrows then (st, true) else (deleteCacheFile t st, false)
  else (deleteCacheFile t (moveToErrorDir t st), false)

def listener : ParserEventListener State where
  output := output sv t
  result := result sv t

def mode : Mode := ⟨t.properties.compatible, t.properties.appId, t.properties.security⟩

/-- The constructor creates the text file, if it can. -/
def start : State where
  inTempDir := true
  inErrorDir := false
  delivered := 0
  buffered := []
  text := if t.senderCreated then some [] else none
  writes := []

def run : State :=
  if t.gzipFails then moveToErrorDir t (start t)
  else
    match parse (some (listener sv t)) sv.ciphers (mode t) t.stream (start t) with
    | (st, true) => moveToErrorDir t st
    | (st, false) => st

/-! ### No upload is lost -/

/-- The lines of the records of the upload. -/
def lines : List String :=
  (records sv.ciphers (mode t) t.stream).map fun r => line sv (logMessage sv t r)

/-- The upload decodes wholly: every frame has a record, and they end where the stream does. -/
def Decodes : Prop :=
  (∀ r ∈ (frames sv.ciphers (mode t) t.stream).1, r.isSome) ∧
    (frames sv.ciphers (mode t) t.stream).2 = .exited (.stop true)

/-- The uploaded file still exists. -/
def Kept (st : State) : Prop := st.inTempDir = true ∨ st.inErrorDir = true

/-! ### One record, and all of them -/

/-- Delivering the `i`-th record throws nothing. -/
def quiet (i : ℕ) : Bool :=
  t.senderCreated && (t.properties.level == VERBOSE || !t.graylogThrows i)

variable {sv t}

/-- What delivering one record does. -/
lemma output_eq (sv : Services) (t : Task) (r : LogRecord) (st : State) : output sv t r st =
    if quiet t st.delivered then
      ({ st with
        delivered := st.delivered + 1
        buffered := st.buffered ++
          if t.lineFails st.delivered then [] else [line sv (logMessage sv t r)] }, false)
    else ({ st with delivered := st.delivered + 1 }, true) := by
  unfold output senderList quiet
  by_cases hlevel : t.properties.level = VERBOSE <;> cases hs : t.senderCreated <;>
    cases hg : t.graylogThrows st.delivered <;> cases hl : t.lineFails st.delivered <;>
      simp [hlevel, hs, hg, hl, sendAll, send, sendLocal]

/-- The lines that come to the buffer of records delivered from the `i`-th on. -/
def kept (sv : Services) (t : Task) : ℕ → List LogRecord → List String
  | _, [] => []
  | i, r :: rs =>
    (if t.lineFails i then [] else [line sv (logMessage sv t r)]) ++ kept sv t (i + 1) rs

/-- Records on which nothing throws are delivered to the last. -/
lemma deliverAll_quiet (sv : Services) {t : Task} (rs : List LogRecord) (st : State)
    (h : ∀ i < rs.length, quiet t (st.delivered + i) = true) :
    deliverAll (some (listener sv t)) rs st =
      ({ st with
        delivered := st.delivered + rs.length
        buffered := st.buffered ++ kept sv t st.delivered rs }, false) := by
  induction rs generalizing st with
  | nil => simp [deliverAll, kept]
  | cons r rs ih =>
    have h0 : quiet t st.delivered = true := h 0 (by simp)
    have hout := output_eq sv t r st
    rw [if_pos h0] at hout
    rw [deliverAll, deliver]
    simp only [listener, hout]
    rw [← listener, ih]
    · simp [kept]
      omega
    · intro i hi
      have := h (i + 1) (by simpa using hi)
      rwa [show st.delivered + (i + 1) = st.delivered + 1 + i by omega] at this

lemma length_kept_le (sv : Services) (t : Task) (i : ℕ) (rs : List LogRecord) :
    (kept sv t i rs).length ≤ rs.length := by
  induction rs generalizing i with
  | nil => simp [kept]
  | cons r rs ih =>
    have := ih (i + 1)
    cases hl : t.lineFails i <;> simp [kept, hl] <;> omega

/-- Every record has its line in the buffer exactly when no line fails. -/
lemma kept_full_iff (sv : Services) (t : Task) (i : ℕ) (rs : List LogRecord) :
    rs.length ≤ (kept sv t i rs).length ↔ ∀ j < rs.length, t.lineFails (i + j) = false := by
  induction rs generalizing i with
  | nil => simp [kept]
  | cons r rs ih =>
    have hle := length_kept_le sv t (i + 1) rs
    constructor
    · intro h j hj
      cases hl : t.lineFails i with
      | true =>
        simp only [kept, hl, if_true, List.nil_append, List.length_cons] at h
        omega
      | false =>
        simp only [kept, hl, List.length_append, List.length_cons] at h
        rcases j with _ | j
        · exact hl
        · have hrest := (ih (i + 1)).mp (by simp at h; omega) j (by simpa using hj)
          rwa [show i + 1 + j = i + (j + 1) by omega] at hrest
    · intro h
      have h0 : t.lineFails i = false := h 0 (by simp)
      have hrest := (ih (i + 1)).mpr fun j hj => by
        have := h (j + 1) (by simpa using hj)
        rwa [show i + (j + 1) = i + 1 + j by omega] at this
      simp [kept, h0]
      omega

lemma kept_eq_of_full {i : ℕ} {rs : List LogRecord}
    (h : ∀ j < rs.length, t.lineFails (i + j) = false) :
    kept sv t i rs = rs.map fun r => line sv (logMessage sv t r) := by
  induction rs generalizing i with
  | nil => rfl
  | cons r rs ih =>
    have h0 : t.lineFails i = false := h 0 (by simp)
    have hrest := ih (i := i + 1) fun j hj => by
      have := h (j + 1) (by simpa using hj)
      rwa [show i + (j + 1) = i + 1 + j by omega] at this
    simp [kept, h0, hrest]

/-- Where something throws, the delivery stops with a line missing; the files and hand-overs
are as before. -/
lemma deliverAll_throws (sv : Services) {t : Task} (rs : List LogRecord) (st : State)
    (h : ∃ i < rs.length, quiet t (st.delivered + i) = false) :
    ∃ delivered buffered, deliverAll (some (listener sv t)) rs st =
      ({ st with delivered := delivered, buffered := buffered }, true) ∧
        buffered.length < st.buffered.length + rs.length := by
  induction rs generalizing st with
  | nil =>
    obtain ⟨i, hi, -⟩ := h
    simp at hi
  | cons r rs ih =>
    have hout := output_eq sv t r st
    cases h0 : quiet t st.delivered with
    | false =>
      rw [h0] at hout
      refine ⟨st.delivered + 1, st.buffered, ?_, by simp⟩
      rw [deliverAll, deliver]
      simp [listener, hout]
    | true =>
      rw [if_pos h0] at hout
      obtain ⟨i, hi, hq⟩ := h
      rcases i with _ | i
      · rw [Nat.add_zero, h0] at hq
        cases hq
      · rw [deliverAll, deliver]
        simp only [listener, hout]
        rw [← listener]
        have hq' : quiet t (st.delivered + 1 + i) = false := by
          rwa [show st.delivered + (i + 1) = st.delivered + 1 + i by omega] at hq
        obtain ⟨delivered, buffered, heq, hlen⟩ := ih
          { st with
            delivered := st.delivered + 1
            buffered := st.buffered ++
              if t.lineFails st.delivered then [] else [line sv (logMessage sv t r)] }
          ⟨i, by simpa using hi, hq'⟩
        refine ⟨delivered, buffered, heq, ?_⟩
        cases hl : t.lineFails st.delivered <;> simp [hl] at hlen <;> simp <;> omega

/-! ### A whole run -/

/-- The parse is reported as failed: nothing is thrown, and a frame breaks off the loop. -/
def ReportedFailed (sv : Services) (t : Task) : Prop :=
  (∀ i < (records sv.ciphers (mode t) t.stream).length, quiet t i = true) ∧
    (frames sv.ciphers (mode t) t.stream).2 = .exited (.stop false)

/-- The text file was created, nothing is thrown on any record, and no line is lost in writing it
or in the release. -/
def Complete (sv : Services) (t : Task) : Prop :=
  let n := (records sv.ciphers (mode t) t.stream).length
  t.senderCreated = true ∧ (∀ i < n, quiet t i = true) ∧
    (∀ i < n, t.lineFails i = false) ∧ ∀ k ∈ t.releaseFails, n ≤ k

/-- What is reached before the parse is reported: the buffer has all lines exactly when
nothing was thrown or lost. -/
structure Reached (sv : Services) (t : Task) (buffered : List String) (thrown : Bool) :
    Prop where
  quiet_iff : thrown = false ↔
    ∀ i < (records sv.ciphers (mode t) t.stream).length, quiet t i = true
  full_iff : (lines sv t).length ≤ buffered.length ↔ thrown = false ∧
    ∀ i < (records sv.ciphers (mode t) t.stream).length, t.lineFails i = false
  eq_lines : (lines sv t).length ≤ buffered.length → buffered = lines sv t

lemma deliverAll_reached (sv : Services) (t : Task) : ∃ delivered buffered thrown,
    deliverAll (some (listener sv t)) (records sv.ciphers (mode t) t.stream) (start t) =
      ({ start t with delivered := delivered, buffered := buffered }, thrown) ∧
    Reached sv t buffered thrown := by
  set rs := records sv.ciphers (mode t) t.stream with hrs
  have hlines : (lines sv t).length = rs.length := by rw [lines, List.length_map]
  by_cases h : ∀ i < rs.length, quiet t i = true
  · have hd := deliverAll_quiet sv rs (start t) (by simpa [start] using h)
    have hfull := kept_full_iff sv t 0 rs
    refine ⟨_, _, _, hd, by simpa using h, ?_, ?_⟩
    · simpa [hlines, start] using hfull
    · intro hle
      have hle' : rs.length ≤ (kept sv t 0 rs).length := by simpa [hlines, start] using hle
      rw [lines, ← hrs, ← kept_eq_of_full (i := 0) (hfull.mp hle')]
      simp [start]
  · push Not at h
    obtain ⟨i, hi, hq⟩ := h
    obtain ⟨delivered, buffered, hd, hlen⟩ := deliverAll_throws sv rs (start t)
      ⟨i, hi, by simpa [start] using hq⟩
    have hlt : buffered.length < rs.length := by simpa [start] using hlen
    refine ⟨delivered, buffered, true, hd, ?_, ?_, ?_⟩
    · simp only [Bool.true_eq_false, false_iff, not_forall]
      exact ⟨i, hi, hq⟩
    · simp only [Bool.true_eq_false, false_and, iff_false, hlines]
      omega
    · intro hle
      omega

/-- The end of a run whose parse is reported as successful. -/
def afterSuccess (sv : Services) (t : Task) (st : State) : State :=
  match result sv t true st with
  | (st, true) => moveToErrorDir t st
  | (st, false) => st

/-- A run whose parse is reported as successful goes on with the record. -/
lemma run_successful (hg : t.gzipFails = false) (h : ¬ ReportedFailed sv t) :
    ∃ delivered buffered thrown, Reached sv t buffered thrown ∧
      run sv t =
        afterSuccess sv t { start t with delivered := delivered, buffered := buffered } := by
  obtain ⟨delivered, buffered, thrown, hd, hr⟩ := deliverAll_reached sv t
  refine ⟨delivered, buffered, thrown, hr, ?_⟩
  rw [run, hg, if_neg Bool.false_ne_true, parse_eq, hd]
  cases thrown with
  | true => rfl
  | false =>
    have hend : (frames sv.ciphers (mode t) t.stream).2 ≠ .exited (.stop false) :=
      fun hend => h ⟨hr.quiet_iff.mp rfl, hend⟩
    simp [hend, report, listener, afterSuccess]

def plainServices : Services where
  md5Hex := id
  toLowerCase := id
  timeString := fun _ => "1970-01-01 00:00:00.007"
  parseDate := fun s => if s = "20160101" then some 1451606400000 else none
  ciphers := plainCiphers

/-- A file of one record, in whose task nothing fails. -/
def oneRecordTask (p : LogFileProperties) : Task where
  properties := p
  stream := ⟨plainRecord.bytes, false⟩
  gzipFails := false
  senderCreated := true
  graylogThrows := fun _ => false
  lineFails := fun _ => false
  releaseFails := none
  writeThrows := false
  moveFails := false
  deleteFails := false

end Logful.LogFileParseTask
