import Logful.Delimited
import Logful.GraylogRetry
import Logful.JsonText

/-!
`GelfMessageJsonEncoder`: the bytes of a GELF message, and the stream that a TCP channel makes
of many.

A text is made of Unicode characters. The generator is code of another library; it is a parameter,
with a reader of what it writes. How a floating-point number is written, and in which order the
entries of a `HashMap` come, are given with it.
-/

namespace Logful.GelfMessageJsonEncoder

open Logful.BigEndian Logful.Delimited Logful.Entity Logful.GlobalReference
open Logful.GraylogClientService Logful.JavaText Logful.JsonText
open Logful.GraylogRetry (noDoubles)

variable {Double : Type}

abbrev Entries (Double : Type) := List (Sigma fun _ : String => FieldValue Double)

/-- The generator: a number that is none, or is infinite, is written as a string. `write` is the
text of an object of members, in UTF-8, and `read` what a reader of such texts makes of bytes.
What is written is read back, and no text has a control character such as the zero in it. -/
structure JsonGenerator (Double : Type) where
  write : Members → Bytes
  read : Bytes → Option Members
  read_write : ∀ ms : Members, (∀ m ∈ ms, m.2.WellFormed) → read (write ms) = some ms
  zero_notMem : ∀ ms : Members, (∀ m ∈ ms, m.2.WellFormed) → 0 ∉ write ms
  writeNumber : Double → Scalar
  wellFormed : ∀ x, (writeNumber x).WellFormed
  entrySet : Fields Double → Entries Double
  perm : ∀ fields, (entrySet fields).Perm fields.entries

/-- A message as the encoder reads it. -/
structure Message (Double : Type) where
  version : String
  host : String
  message : String
  fullMessage : Option String
  timestamp : Double
  level : Option ℤ
  additionalFields : Fields Double

/-- What `createMessage` makes has a level and no full message. -/
def Message.ofCreated (g : GelfMessage Double) : Message Double :=
  ⟨g.version, g.host, g.message, none, g.timestamp, some g.level, g.additionalFields⟩

/-! ### The encoder -/

/-- `field.getKey().startsWith("_")`. -/
def startsWith (key : String) : Bool := key.toList.head? = some '_'

def realKey (key : String) : String := if startsWith key then key else "_" ++ key

variable (J : JsonGenerator Double)

def fieldScalar : FieldValue Double → Scalar
  | .int n | .long n => .number (toString n)
  | .double x => J.writeNumber x
  | .text none => .null
  | .text (some s) => .string s

/-- The members of the object, in the order in which they are written. -/
def members (m : Message Double) : Members :=
  [("version", .string m.version), ("timestamp", J.writeNumber m.timestamp),
    ("host", .string m.host), ("short_message", .string m.message)] ++
  (match m.level with
    | some level => [("level", .number (toString level))]
    | none => []) ++
  (match m.fullMessage with
    | some fullMessage => [("full_message", .string fullMessage)]
    | none => []) ++
  (J.entrySet m.additionalFields).map fun field => (realKey field.1, fieldScalar J field.2)

def body (m : Message Double) : Bytes := J.write (members J m)

/-- `toJson`: the object, and the zero that ends a frame. -/
def toJson (m : Message Double) : Bytes := body J m ++ [0]

variable {J}

lemma isNumber_toString (n : ℤ) : IsNumber (toString n) := by
  have hdigits : ∀ m : ℕ, ∀ c ∈ Nat.toDigits 10 m, isNumberChar c = true := by
    intro m c hc
    simp [isNumberChar, Nat.isDigit_of_mem_toDigits (by decide) (by decide) hc]
  refine ⟨fun hempty => ?_, ?_⟩
  · have hread := signedDigits_toString n
    rw [hempty] at hread
    cases hread
  · rw [Int.toString_eq_repr, Int.repr_eq_if]
    split_ifs
    · rw [Nat.toList_repr]
      exact hdigits _
    · rw [String.toList_append, Nat.toList_repr]
      intro c hc
      rcases List.mem_append.mp hc with hc | hc
      · rw [List.mem_singleton.mp hc]
        rfl
      · exact hdigits _ c hc

lemma wellFormed_members (m : Message Double) : ∀ x ∈ members J m, x.2.WellFormed := by
  have hfield : ∀ v : FieldValue Double, (fieldScalar J v).WellFormed := by
    intro v
    cases v with
    | text s => cases s <;> trivial
    | int n => exact isNumber_toString n
    | long n => exact isNumber_toString n
    | double x => exact J.wellFormed x
  intro x hx
  simp only [members, List.mem_append, List.mem_map, List.mem_cons, List.not_mem_nil,
    or_false] at hx
  rcases hx with (((rfl | rfl | rfl | rfl) | hlevel) | hfull) | ⟨field, -, rfl⟩
  · trivial
  · exact J.wellFormed m.timestamp
  · trivial
  · trivial
  · cases hl : m.level with
    | none => simp [hl] at hlevel
    | some level =>
      rw [hl, List.mem_singleton] at hlevel
      rw [hlevel]
      exact isNumber_toString level
  · cases hf : m.fullMessage with
    | none => simp [hf] at hfull
    | some fullMessage =>
      rw [hf, List.mem_singleton] at hfull
      rw [hfull]
      trivial
  · exact hfield field.2

/-- The receiver reads the members that were written. -/
lemma read_body (m : Message Double) : J.read (body J m) = some (members J m) :=
  J.read_write _ (wellFormed_members m)

/-- Whatever the texts of the message are, the body has no zero. -/
lemma zero_notMem_body (m : Message Double) : 0 ∉ body J m :=
  J.zero_notMem _ (wellFormed_members m)

/-! ### The stream -/

/-- What is written to a channel for messages. -/
def streamOf (J : JsonGenerator Double) (ms : List (Message Double)) : Bytes :=
  ms.flatMap (toJson J)

lemma streamOf_eq (ms : List (Message Double)) : streamOf J ms = stream 0 (ms.map (body J)) := by
  rw [streamOf, stream, List.flatMap_map]
  rfl

/-- **No text leaves its frame.** A receiver that has come to any point of the stream has read
the first messages, each with its members, and after the last one it has them all. -/
theorem receive_streamOf (J : JsonGenerator Double) (ms : List (Message Double)) :
    (∀ l, l <+: streamOf J ms → ∃ k ≤ ms.length,
      (receive 0 l).frames.map J.read = (ms.take k).map fun m => some (members J m)) ∧
    (receive 0 (streamOf J ms)).frames.map J.read = ms.map (fun m => some (members J m)) ∧
      (receive 0 (streamOf J ms)).pending = [] := by
  have hzero : ∀ f ∈ ms.map (body J), (0 : UInt8) ∉ f := by
    intro f hf
    obtain ⟨m, -, rfl⟩ := List.mem_map.mp hf
    exact zero_notMem_body m
  have hread : ∀ ms : List (Message Double),
      (ms.map (body J)).map J.read = ms.map fun m => some (members J m) := by
    intro ms
    rw [List.map_map]
    refine List.map_congr_left fun m _ => ?_
    rw [Function.comp_apply, read_body]
  rw [streamOf_eq]
  refine ⟨fun l hl => ?_, ?_, ?_⟩
  · have hprefix := frames_prefix_of_prefix hzero hl
    refine ⟨(receive 0 l).frames.length, ?_, ?_⟩
    · simpa using hprefix.length_le
    · have htake := List.prefix_iff_eq_take.mp hprefix
      rw [← List.map_take] at htake
      calc (receive 0 l).frames.map J.read
          = ((ms.take (receive 0 l).frames.length).map (body J)).map J.read :=
            congrArg (List.map J.read) htake
        _ = _ := hread _
  · rw [receive_stream hzero]
    exact hread ms
  · rw [receive_stream hzero]

/-! ### The names -/

lemma realKey_of_startsWith {key : String} (h : startsWith key = true) : realKey key = key :=
  if_pos h

lemma realKey_of_not {key : String} (h : ¬ startsWith key = true) : realKey key = "_" ++ key :=
  if_neg h

lemma startsWith_append (s : String) : startsWith ("_" ++ s) = true := by
  simp [startsWith]

lemma startsWith_realKey (key : String) : startsWith (realKey key) = true := by
  unfold realKey
  split_ifs with h
  · exact h
  · exact startsWith_append key

/-- Two fields go by one name when one of them has the underscore that the other is given. -/
lemma realKey_eq_iff {a b : String} (hne : a ≠ b) : realKey a = realKey b ↔
    (¬ startsWith a = true ∧ b = "_" ++ a) ∨ (¬ startsWith b = true ∧ a = "_" ++ b) := by
  by_cases ha : startsWith a = true <;> by_cases hb : startsWith b = true
  · rw [realKey_of_startsWith ha, realKey_of_startsWith hb]
    simp [ha, hb, hne]
  · rw [realKey_of_startsWith ha, realKey_of_not hb]
    simp [ha, hb]
  · rw [realKey_of_not ha, realKey_of_startsWith hb]
    simp [ha, hb, eq_comm]
  · rw [realKey_of_not ha, realKey_of_not hb]
    have hb' : b ≠ "_" ++ a := fun h => hb (h ▸ startsWith_append a)
    have ha' : a ≠ "_" ++ b := fun h => ha (h ▸ startsWith_append b)
    simp [hb', ha', hne]

/-- The names of the members before the additional fields. -/
def ownNames (m : Message Double) : List String :=
  ["version", "timestamp", "host", "short_message"] ++
    (if m.level.isSome then ["level"] else []) ++
    (if m.fullMessage.isSome then ["full_message"] else [])

lemma ownNames_spec (m : Message Double) :
    (ownNames m).Nodup ∧ ∀ name ∈ ownNames m, startsWith name = false := by
  unfold ownNames
  cases m.level.isSome <;> cases m.fullMessage.isSome <;> decide

lemma names_members (m : Message Double) : (members J m).map Prod.fst =
    ownNames m ++ ((J.entrySet m.additionalFields).map Sigma.fst).map realKey := by
  unfold members ownNames
  cases m.level <;> cases m.fullMessage <;> simp [Function.comp_def]

/-- **When a name stands twice.** The names of a message are different if and only if no
additional field has the name that another one is given by its underscore. -/
theorem nodup_names_iff (J : JsonGenerator Double) (m : Message Double) :
    ((members J m).map Prod.fst).Nodup ↔
      ∀ key ∈ m.additionalFields, ¬ startsWith key = true →
        ("_" ++ key) ∉ m.additionalFields := by
  have hkeys : ((J.entrySet m.additionalFields).map Sigma.fst).Perm m.additionalFields.keys :=
    (J.perm m.additionalFields).map Sigma.fst
  have hnodup : ((J.entrySet m.additionalFields).map Sigma.fst).Nodup :=
    hkeys.nodup_iff.mpr m.additionalFields.nodupKeys
  have hmem : ∀ key, key ∈ (J.entrySet m.additionalFields).map Sigma.fst ↔
      key ∈ m.additionalFields := fun key => hkeys.mem_iff
  obtain ⟨hown, hunderscore⟩ := ownNames_spec m
  rw [names_members, List.nodup_append]
  have hdisjoint : ∀ a ∈ ownNames m,
      ∀ b ∈ ((J.entrySet m.additionalFields).map Sigma.fst).map realKey, a ≠ b := by
    rintro a ha b hb rfl
    obtain ⟨key, -, rfl⟩ := List.mem_map.mp hb
    have hstarts := hunderscore _ ha
    rw [startsWith_realKey] at hstarts
    cases hstarts
  rw [List.nodup_map_iff_inj_on hnodup]
  constructor
  · rintro ⟨-, hinj, -⟩ key hkey hstarts hunder
    have hne : key ≠ "_" ++ key := fun h => hstarts (h ▸ startsWith_append key)
    exact hne (hinj key ((hmem _).mpr hkey) _ ((hmem _).mpr hunder)
      ((realKey_eq_iff hne).mpr (.inl ⟨hstarts, rfl⟩)))
  · intro h
    refine ⟨hown, fun a ha b hb heq => ?_, hdisjoint⟩
    by_contra hne
    rcases (realKey_eq_iff hne).mp heq with ⟨hstarts, rfl⟩ | ⟨hstarts, rfl⟩
    · exact h a ((hmem _).mp ha) hstarts ((hmem _).mp hb)
    · exact h b ((hmem _).mp hb) hstarts ((hmem _).mp ha)

/-! ### What is created -/

/-- Every name has its underscore. -/
def Underscored (fields : Fields Double) : Prop := ∀ key ∈ fields, startsWith key = true

lemma Underscored.add {fields : Fields Double} (h : Underscored fields) {key : String}
    (hkey : startsWith key = true) (value : FieldValue Double) :
    Underscored (addAdditionalField key value fields) := by
  intro k hk
  rcases (AList.mem_insert _).mp hk with rfl | hk
  · exact hkey
  · exact h k hk

lemma underscored_baseFields (m : LogMessage) : Underscored (baseFields m : Fields Double) := by
  have hempty : Underscored (∅ : Fields Double) :=
    fun key hkey => absurd hkey (AList.notMem_empty key)
  unfold baseFields
  simp only
  split_ifs
  all_goals
    repeat' refine Underscored.add ?_ rfl _
    exact hempty

lemma Underscored.step {D : Doubles Double} {layout : Option Layout} {c : Columns Double}
    (h : Underscored c.fields) (col : String) : Underscored (c.step D layout col).fields := by
  have hplain : Underscored (c.plain col) := h.add (by simp [startsWith]) _
  have hitem : ∀ (item : LayoutItem) (value : FieldValue Double),
      Underscored (addAdditionalField ("_col_" ++ item.fullName) value c.fields) :=
    fun item value => h.add (by simp [startsWith]) value
  unfold Columns.step
  simp only
  split
  · split
    · exact hplain
    · split
      · split
        · exact hitem _ _
        · exact h
      · exact hitem _ _
  · exact hplain

lemma underscored_created {D : Doubles Double} {m : LogMessage} {g : GelfMessage Double}
    (h : created D m = some g) : Underscored g.additionalFields := by
  have hfold : ∀ (layout : Option Layout) (columns : List String) (c : Columns Double),
      Underscored c.fields → Underscored (columns.foldl (Columns.step D layout) c).fields := by
    intro layout columns
    induction columns with
    | nil => exact fun c hc => hc
    | cons col columns ih => exact fun c hc => ih _ (hc.step col)
  unfold created at h
  split at h
  · next msg layout _ _ =>
    rw [(fields_of_gelfMessage h).2]
    exact hfold layout _ _ (underscored_baseFields m)
  · cases h

/-- **What is read of a message that was created.** Whatever the texts and the layout are, the
frame is read, no name stands twice, the text is the text of the message, and under a name with
an underscore there is exactly the value that `createMessage` gave it. -/
theorem read_created (J : JsonGenerator Double) (D : Doubles Double) (m : LogMessage)
    (g : GelfMessage Double) (h : created D m = some g) :
    ∃ ms, J.read (body J (.ofCreated g)) = some ms ∧ (ms.map Prod.fst).Nodup ∧
      (∀ x, ("short_message", x) ∈ ms ↔ x = .string g.message) ∧
      ∀ key x, startsWith key = true →
        ((key, x) ∈ ms ↔ ∃ v, g.additionalFields.lookup key = some v ∧ x = fieldScalar J v) := by
  have hunder := underscored_created h
  have hfield : ∀ key x, (key, x) ∈ (J.entrySet g.additionalFields).map
      (fun field => (realKey field.1, fieldScalar J field.2)) ↔
        ∃ v, g.additionalFields.lookup key = some v ∧ x = fieldScalar J v := by
    intro key x
    rw [List.mem_map]
    constructor
    · rintro ⟨⟨k, v⟩, hk, heq⟩
      have hentry : (⟨k, v⟩ : Sigma fun _ : String => FieldValue Double) ∈
          g.additionalFields.entries := (J.perm _).mem_iff.mp hk
      have hkey : k ∈ g.additionalFields := List.mem_map_of_mem (f := Sigma.fst) hentry
      obtain ⟨rfl, rfl⟩ := Prod.mk.inj heq
      rw [realKey_of_startsWith (hunder k hkey)]
      exact ⟨v, AList.mem_lookup_iff.mpr hentry, rfl⟩
    · rintro ⟨v, hv, rfl⟩
      have hentry := AList.mem_lookup_iff.mp hv
      have hkey : key ∈ g.additionalFields := List.mem_map_of_mem (f := Sigma.fst) hentry
      refine ⟨⟨key, v⟩, (J.perm _).mem_iff.mpr hentry, ?_⟩
      rw [realKey_of_startsWith (hunder key hkey)]
  refine ⟨_, read_body _, ?_, fun x => ?_, fun key x hkey => ?_⟩
  · refine (nodup_names_iff J _).mpr fun key hkey hstarts => ?_
    exact absurd (hunder key hkey) hstarts
  · constructor
    · intro hx
      simp only [members, Message.ofCreated, List.mem_append, List.mem_cons, List.not_mem_nil,
        or_false] at hx
      rcases hx with ((hx | hx | hx | hx) | hx) | hx
      · exact absurd (Prod.mk.inj hx).1 (by decide)
      · exact absurd (Prod.mk.inj hx).1 (by decide)
      · exact absurd (Prod.mk.inj hx).1 (by decide)
      · exact (Prod.mk.inj hx).2
      · exact absurd (Prod.mk.inj hx).1 (by decide)
      · obtain ⟨field, -, heq⟩ := List.mem_map.mp hx
        have hname := startsWith_realKey field.1
        rw [(Prod.mk.inj heq).1] at hname
        cases hname
    · rintro rfl
      simp [members, Message.ofCreated]
  · rw [← hfield key x, members, List.mem_append]
    refine or_iff_right fun hx => ?_
    have hown : key ∈ ownNames (.ofCreated g) := by
      have hmap := List.mem_map_of_mem (f := Prod.fst) hx
      simpa [ownNames, Message.ofCreated] using hmap
    have hnot := (ownNames_spec (Message.ofCreated g)).2 key hown
    rw [hkey] at hnot
    cases hnot

/-- A generator for messages whose floating-point numbers do not matter. -/
def plainGenerator : JsonGenerator Unit where
  write ms := utf8 (write ms)
  read bytes := (utf8Decode bytes).bind read
  read_write ms h := by
    rw [utf8Decode_utf8, Option.bind_some]
    exact read_write h
  zero_notMem ms h := zero_notMem_utf8 fun c hc hzero => by
    have := printable_write h c hc
    omega
  writeNumber _ := .number "0.0"
  wellFormed _ := (by decide : IsNumber "0.0")
  entrySet fields := fields.entries
  perm _ := .refl _

/-- A message whose tag has a quotation mark and a line feed. -/
def quoted : LogMessage :=
  .create 1 (some "u") (some "app") (some "log") none 3 0 (some "\"main\n") (some "m") none none

theorem read_created_quoted :
    ∃ g ms, created noDoubles quoted = some g ∧
      plainGenerator.read (body plainGenerator (.ofCreated g)) = some ms ∧ (ms.map Prod.fst).Nodup ∧
      ("_tag", .string "\"main\n") ∈ ms := by
  obtain ⟨ms, hread, hnodup, -, hfields⟩ :=
    read_created plainGenerator noDoubles quoted _ rfl
  exact ⟨_, ms, rfl, hread, hnodup, (hfields "_tag" _ rfl).mpr ⟨.text (some "\"main\n"), rfl, rfl⟩⟩

end Logful.GelfMessageJsonEncoder
