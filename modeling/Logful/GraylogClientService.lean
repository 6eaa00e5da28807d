import Logful.Entity
import Logful.GlobalReference

/-!
`GraylogClientService`: the GELF message made of a log message, and what is done with it.

Floating-point numbers are a type of their own, with the two functions that make them.
-/

namespace Logful.GraylogClientService

open Logful.Documents Logful.Entity Logful.GlobalReference Logful.JavaText Logful.StringUtil

/-- `Double.parseDouble`, and the division of milliseconds by `1000D`. -/
structure Doubles (Double : Type) where
  parseDouble : String → Option Double
  perThousand : ℤ → Double

variable {Double : Type}

/-! ### GELF messages -/

inductive FieldValue (Double : Type)
  | text (s : Option String)
  | int (n : ℤ)
  | long (n : ℤ)
  | double (x : Double)
  deriving DecidableEq

abbrev Fields (Double : Type) := AList fun _ : String => FieldValue Double

structure GelfMessage (Double : Type) where
  version : String
  host : String
  message : String
  timestamp : Double
  level : ℤ
  additionalFields : Fields Double
  logMessage : Option (Entity ObjectId LogMessage)

/-- The number of `GelfMessageLevel.INFO`. -/
def INFO : ℤ := 6

def addAdditionalField (key : String) (value : FieldValue Double) (fields : Fields Double) :
    Fields Double := fields.insert key value

/-- `parse`: the first of the three number types that takes the string. -/
def parse (D : Doubles Double) (string : String) : Option (FieldValue Double) :=
  match parseInt string with
  | some n => some (.int n)
  | none =>
    match parseLong string with
    | some n => some (.long n)
    | none => (D.parseDouble string).map .double

/-- How the loop over the columns stands. -/
structure Columns (Double : Type) where
  index : ℕ
  fields : Fields Double
  formatError : Bool

/-- A column without an item of the layout, which is named by its place. -/
def Columns.plain (s : Columns Double) (col : String) : Fields Double :=
  addAdditionalField ("_col" ++ toString s.index) (.text (some col)) s.fields

/-- One turn of the loop over the columns. -/
def Columns.step (D : Doubles Double) (layout : Option Layout) (s : Columns Double)
    (col : String) : Columns Double :=
  let s' := match layout, splitInTwo ':' col with
    | some layout, [abbr, value] =>
      match layout.getItem abbr with
      | none => { s with fields := s.plain col }
      | some layoutItem =>
        let key := "_col_" ++ layoutItem.fullName
        match layoutItem.type with
        | .number =>
          match parse D value with
          | some object => { s with fields := addAdditionalField key object s.fields }
          | none => { s with formatError := true }
        | .string => { s with fields := addAdditionalField key (.text (some value)) s.fields }
    | _, _ => { s with fields := s.plain col }
  { s' with index := s'.index + 1 }

/-- The fields of every message. -/
def baseFields (m : LogMessage) : Fields Double :=
  let fields := addAdditionalField "_tag" (.text m.tag) ∅
    |> addAdditionalField "_platform" (.text m.platform)
    |> addAdditionalField "_uid" (.text m.uid)
    |> addAdditionalField "_app_id" (.text m.appId)
    |> addAdditionalField "_log_level" (.int m.level)
    |> addAdditionalField "_log_name" (.text m.loggerName)
    |> addAdditionalField "_log_timestamp" (.long m.timestamp)
  let fields := if isEmpty m.attachment then fields
    else addAdditionalField "_attachment" (.text m.attachment) fields
  if isEmpty m.userAlias then fields
  else addAdditionalField "_alias" (.text m.userAlias) fields

/-- The message for a layout, absent when a column that is to be a number is none. -/
def gelfMessage (D : Doubles Double) (m : LogMessage) (msg : String) (layout : Option Layout) :
    Option (GelfMessage Double) :=
  let columns := (split '|' msg).foldl (Columns.step D layout) ⟨1, baseFields m, false⟩
  if columns.formatError then none
  else some
    { version := "1.1"
      host := "127.0.0.1"
      message := msg
      timestamp := D.perThousand m.timestamp
      level := INFO
      additionalFields := columns.fields
      logMessage := none }

/-- `createMessage`: the layout cache afterwards and the message, absent for null, or the text
of the `IllegalArgumentException`. -/
def createMessage (D : Doubles Double) (first : FirstEntry) (c : LayoutCache) (m : LogMessage) :
    Except String (LayoutCache × Option (GelfMessage Double)) :=
  match m.message with
  | none => .error "message must not be null!"
  | some msg =>
    (getLayout first c m.msgLayout).map fun p => (p.1, gelfMessage D m msg p.2)

/-! ### The service -/

/-- What the service works on: the flag of the connection, the layout cache, the queue of the
transport and the repository. -/
structure Service (Double : Type) where
  connected : Bool
  layouts : LayoutCache
  queue : List (GelfMessage Double)
  messages : Collection ObjectId LogMessage

/-- `save` of the repository, which may throw an exception of the given text. -/
def Service.save (saveFails : Option String) (s : Service Double)
    (m : Entity ObjectId LogMessage) : Service Double × Option String :=
  match saveFails with
  | some e => (s, some e)
  | none => ({ s with messages := s.messages.save m }, none)

lemma Service.save_throws (saveFails : Option String) (s : Service Double)
    (m : Entity ObjectId LogMessage) : (s.save saveFails m).2 = saveFails := by
  cases saveFails <;> rfl

/-- `write(LogMessage)`: the state afterwards, and the text of the exception if one is thrown.
The wait for room in the queue may be interrupted, and the message is saved then. -/
def Service.write (D : Doubles Double) (first : FirstEntry) (interrupted : Bool)
    (saveFails : Option String) (s : Service Double) (m : Entity ObjectId LogMessage) :
    Service Double × Option String :=
  if s.connected then
    match createMessage D first s.layouts m.body with
    | .error e => (s, some e)
    | .ok (c, none) => ({ s with layouts := c }, none)
    | .ok (c, some message) =>
      if interrupted then { s with layouts := c }.save saveFails m
      else ({ s with layouts := c, queue := s.queue ++ [message] }, none)
  else s.save saveFails m

/-- `retrySuccessful`, called for a message that was read from the repository. -/
def Service.retrySuccessful (s : Service Double) (m : Entity ObjectId LogMessage) :
    Service Double :=
  match m.id with
  | none => s
  | some _ =>
    let m := { m with body := { m.body with status := .STATE_SUCCESSFUL } }
    { s with messages := s.messages.save m }

def Service.failed (s : Service Double) (m : Entity ObjectId LogMessage) : Service Double :=
  { s with messages := s.messages.save m }

/-! ### What is created, without the cache -/

/-- The GELF message of a log message, if one is created. -/
def created (D : Doubles Double) (m : LogMessage) : Option (GelfMessage Double) :=
  match m.message, layoutOf m.msgLayout with
  | some msg, .ok layout => gelfMessage D m msg layout
  | _, _ => none

/-- **The cache cannot be seen** in the message that is created. -/
theorem createMessage_created (D : Doubles Double) (first : FirstEntry) (c : LayoutCache)
    (m : LogMessage) : ((createMessage D first c m).toOption.bind Prod.snd) = created D m := by
  unfold createMessage created
  cases m.message with
  | none => rfl
  | some msg =>
    rw [← getLayout_snd first c m.msgLayout]
    cases getLayout first c m.msgLayout <;> rfl

lemma created_of_createMessage {D : Doubles Double} {first : FirstEntry} {c c' : LayoutCache}
    {m : LogMessage} {g : Option (GelfMessage Double)}
    (h : createMessage D first c m = .ok (c', g)) : created D m = g := by
  rw [← createMessage_created D first c m, h]
  rfl

/-- What is created for a layout that can be had without the cache. -/
lemma createMessage_of_layout (D : Doubles Double) (first : FirstEntry) (c : LayoutCache)
    (m : LogMessage) {msg : String} {layout : Option Layout} (hmessage : m.message = some msg)
    (hlayout : layoutOf m.msgLayout = .ok layout) :
    ∃ c', createMessage D first c m = .ok (c', gelfMessage D m msg layout) := by
  rw [← getLayout_snd first c m.msgLayout] at hlayout
  unfold createMessage
  rw [hmessage]
  cases hget : getLayout first c m.msgLayout with
  | error e => simp [hget, Except.map] at hlayout
  | ok p =>
    obtain ⟨c', l⟩ := p
    simp only [hget, Except.map, Except.ok.injEq] at hlayout
    exact ⟨c', by simp only [Except.map, hlayout]⟩

lemma fields_of_gelfMessage {D : Doubles Double} {m : LogMessage} {msg : String}
    {layout : Option Layout} {g : GelfMessage Double} (h : gelfMessage D m msg layout = some g) :
    ((split '|' msg).foldl (Columns.step D layout) ⟨1, baseFields m, false⟩).formatError = false ∧
      g.additionalFields =
        ((split '|' msg).foldl (Columns.step D layout) ⟨1, baseFields m, false⟩).fields := by
  unfold gelfMessage at h
  simp only at h
  split_ifs at h with herror
  cases h
  exact ⟨by simpa using herror, rfl⟩

/-- No GELF message carries the log message it was created from. -/
lemma created_logMessage {D : Doubles Double} {m : LogMessage} {g : GelfMessage Double}
    (h : created D m = some g) : g.logMessage = none := by
  unfold created at h
  split at h
  · simp only [gelfMessage] at h
    split_ifs at h
    cases h
    rfl
  · cases h

end Logful.GraylogClientService
