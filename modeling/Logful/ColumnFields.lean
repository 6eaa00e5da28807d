import Logful.LayoutColumns

/-!
The fields of a GELF message, described without the loop over the columns.

Every column names one field: by the full name of its item, if the layout has one for it, and
else by its place. A message is created unless a column that is to be a number is none; its
`_col` fields are those of the columns, the last one of a name counting, and its other fields are
those of the log message.
-/

namespace Logful.ColumnFields

open Logful.Entity Logful.GlobalReference Logful.GraylogClientService Logful.JavaText
open Logful.GraylogRetry (noDoubles)
open Logful.LayoutColumns Logful.StringUtil

variable {Double : Type} {D : Doubles Double} {layout : Option Layout}

/-! ### Columns -/

/-- The item that the layout has for a column of the form `k:v`, and the value. -/
def resolve (layout : Option Layout) (col : String) : Option (LayoutItem × String) :=
  match layout, splitInTwo ':' col with
  | some layout, [abbr, value] => (layout.getItem abbr).map fun layoutItem => (layoutItem, value)
  | _, _ => none

/-- The name of the field of a column, which counts from 1. -/
def columnKey (layout : Option Layout) (index : ℕ) (col : String) : String :=
  match resolve layout col with
  | some (layoutItem, _) => "_col_" ++ layoutItem.fullName
  | none => "_col" ++ toString index

/-- The value of the field of a column, if it has one. -/
def columnValue (D : Doubles Double) (layout : Option Layout) (col : String) :
    Option (FieldValue Double) :=
  match resolve layout col with
  | some (⟨_, _, .number⟩, value) => parse D value
  | some (⟨_, _, .string⟩, value) => some (.text (some value))
  | none => some (.text (some col))

/-- A column that is to be a number, and that none of the three number types takes. -/
def Unreadable (D : Doubles Double) (layout : Option Layout) (col : String) : Prop :=
  ∃ layoutItem value, resolve layout col = some (layoutItem, value) ∧
    layoutItem.type = .number ∧ parseInt value = none ∧ parseLong value = none ∧
      D.parseDouble value = none

/-- The last of the columns whose field has the name. -/
def IsLast (layout : Option Layout) (columns : List String) (k : String) (i : ℕ) (col : String) :
    Prop :=
  columns[i]? = some col ∧ columnKey layout (i + 1) col = k ∧
    ∀ j col', i < j → columns[j]? = some col' → columnKey layout (j + 1) col' ≠ k

lemma parse_eq_none {value : String} : parse D value = none ↔
    parseInt value = none ∧ parseLong value = none ∧ D.parseDouble value = none := by
  unfold parse
  cases parseInt value <;> cases parseLong value <;> simp

lemma columnValue_eq_none {col : String} :
    columnValue D layout col = none ↔ Unreadable D layout col := by
  unfold columnValue Unreadable
  split
  · next value h => simp [h, parse_eq_none]
  · next value h => simp [h]
  · next h => simp [h]

/-- A turn of the loop: it puts the field of the column, or notes that there is none. -/
lemma step_eq (s : Columns Double) (col : String) :
    Columns.step D layout s col = ⟨s.index + 1,
      (columnValue D layout col).elim s.fields fun x =>
        s.fields.insert (columnKey layout s.index col) x,
      s.formatError || (columnValue D layout col).isNone⟩ := by
  have hplain : ∀ h : resolve layout col = none, (⟨s.index + 1, s.plain col, s.formatError⟩ :
      Columns Double) = ⟨s.index + 1, (columnValue D layout col).elim s.fields fun x =>
        s.fields.insert (columnKey layout s.index col) x,
      s.formatError || (columnValue D layout col).isNone⟩ := by
    intro h
    simp [columnValue, columnKey, h, Columns.plain, addAdditionalField]
  cases layout with
  | none => exact hplain rfl
  | some layout =>
    unfold Columns.step
    by_cases hcolon : ':' ∈ col.toList
    · obtain ⟨abbr, value, hsplit⟩ : ∃ abbr value, splitInTwo ':' col = [abbr, value] :=
        ⟨_, _, if_pos hcolon⟩
      simp only [hsplit]
      cases hitem : layout.getItem abbr with
      | none => exact hplain (by simp [resolve, hsplit, hitem])
      | some layoutItem =>
        have hresolve : resolve (some layout) col = some (layoutItem, value) := by
          simp [resolve, hsplit, hitem]
        obtain ⟨abbreviation, fullName, type⟩ := layoutItem
        cases type with
        | number =>
          cases hparse : parse D value <;>
            simp [columnValue, columnKey, hresolve, hparse, addAdditionalField]
        | string => simp [columnValue, columnKey, hresolve, addAdditionalField]
    · have hsplit : splitInTwo ':' col = [col] := if_neg hcolon
      simp only [hsplit]
      exact hplain (by simp [resolve, hsplit])

/-! ### The loop -/

/-- How the loop stands behind some columns. -/
structure Behind (D : Doubles Double) (layout : Option Layout) (fields : Fields Double)
    (columns : List String) (s : Columns Double) : Prop where
  index : s.index = columns.length + 1
  formatError : s.formatError = true ↔ ∃ col ∈ columns, Unreadable D layout col
  last : s.formatError = false → ∀ k i col, IsLast layout columns k i col →
    s.fields.lookup k = columnValue D layout col
  other : ∀ k, (∀ i col, columns[i]? = some col → columnKey layout (i + 1) col ≠ k) →
    s.fields.lookup k = fields.lookup k

theorem behind_foldl (D : Doubles Double) (layout : Option Layout) (fields : Fields Double)
    (columns : List String) :
    Behind D layout fields columns (columns.foldl (Columns.step D layout) ⟨1, fields, false⟩) := by
  induction columns using List.reverseRecOn with
  | nil => exact ⟨rfl, by simp, by simp [IsLast], fun _ _ => rfl⟩
  | append_singleton columns col ih =>
    rw [List.foldl_append, List.foldl_cons, List.foldl_nil]
    generalize columns.foldl (Columns.step D layout) ⟨1, fields, false⟩ = s at ih
    rw [step_eq]
    have hold : ∀ (i : ℕ) (col' : String), columns[i]? = some col' →
        (columns ++ [col])[i]? = some col' := by
      intro i col' hget
      rw [List.getElem?_append_left (List.getElem?_eq_some_iff.mp hget).1]
      exact hget
    have hnew : (columns ++ [col])[columns.length]? = some col := List.getElem?_concat_length
    refine ⟨?_, ?_, ?_, ?_⟩
    · simp [ih.index]
    · simp [ih.formatError, columnValue_eq_none, or_and_right, exists_or]
    · intro herror k i col' hi
      obtain ⟨hget, hkey, hlater⟩ := hi
      rw [Bool.or_eq_false_iff] at herror
      obtain ⟨x, hx⟩ := Option.isSome_iff_exists.mp (Option.isNone_eq_false_iff.mp herror.2)
      simp only [hx, Option.elim_some]
      rcases Nat.lt_trichotomy i columns.length with hi | rfl | hi
      · -- a column before the new one, which has another name then
        have hne : columnKey layout s.index col ≠ k := by
          rw [ih.index]
          exact hlater columns.length col hi hnew
        rw [AList.lookup_insert_ne hne.symm]
        rw [List.getElem?_append_left hi] at hget
        refine ih.last herror.1 k i col' ⟨hget, hkey, fun j col'' hj hget' => ?_⟩
        exact hlater j col'' hj (hold j col'' hget')
      · rw [hnew] at hget
        obtain rfl := Option.some_inj.mp hget
        rw [← ih.index] at hkey
        rw [hkey, AList.lookup_insert, hx]
      · have hlen : (columns ++ [col]).length ≤ i := by simpa using Nat.succ_le_of_lt hi
        rw [List.getElem?_eq_none hlen] at hget
        cases hget
    · intro k hk
      have hother : s.fields.lookup k = fields.lookup k :=
        ih.other k fun i col' hget => hk i col' (hold i col' hget)
      cases columnValue D layout col with
      | none => exact hother
      | some x =>
        have hne : columnKey layout s.index col ≠ k := by
          rw [ih.index]
          exact hk columns.length col hnew
        rw [Option.elim_some, AList.lookup_insert_ne hne.symm, hother]

/-- A name that some column has, a last column has. -/
lemma exists_isLast {columns : List String} {k : String} {i : ℕ} {col : String}
    (hget : columns[i]? = some col) (hkey : columnKey layout (i + 1) col = k) :
    ∃ j col', IsLast layout columns k j col' := by
  induction columns using List.reverseRecOn with
  | nil => simp at hget
  | append_singleton columns last ih =>
    have hlast : (columns ++ [last])[columns.length]? = some last := List.getElem?_concat_length
    by_cases hk : columnKey layout (columns.length + 1) last = k
    · refine ⟨columns.length, last, hlast, hk, fun j col' hj hget' => ?_⟩
      have hlen : (columns ++ [last]).length ≤ j := by simpa using Nat.succ_le_of_lt hj
      rw [List.getElem?_eq_none hlen] at hget'
      cases hget'
    · have hbefore : ∀ {j : ℕ} {col' : String}, (columns ++ [last])[j]? = some col' →
          columnKey layout (j + 1) col' = k → columns[j]? = some col' := by
        intro j col' hget' hkey'
        rw [List.getElem?_append] at hget'
        split_ifs at hget' with hj
        · exact hget'
        · obtain ⟨hj', rfl⟩ : j - columns.length = 0 ∧ last = col' := by
            simpa [List.getElem?_singleton] using hget'
          have hlen : j = columns.length := by omega
          exact absurd (hlen ▸ hkey') hk
      obtain ⟨j, col', hget', hkey', hlater⟩ := ih (hbefore hget hkey)
      refine ⟨j, col', ?_, hkey', fun i' col'' hi' hget'' hkey'' =>
        hlater i' col'' hi' (hbefore hget'' hkey'') hkey''⟩
      rw [List.getElem?_append_left (List.getElem?_eq_some_iff.mp hget').1]
      exact hget'

/-! ### The message -/

/-- The fields that are not those of columns. -/
structure OwnFields (m : LogMessage) (fields : Fields Double) : Prop where
  tag : fields.lookup "_tag" = some (.text m.tag)
  platform : fields.lookup "_platform" = some (.text m.platform)
  uid : fields.lookup "_uid" = some (.text m.uid)
  appId : fields.lookup "_app_id" = some (.text m.appId)
  level : fields.lookup "_log_level" = some (.int m.level)
  loggerName : fields.lookup "_log_name" = some (.text m.loggerName)
  timestamp : fields.lookup "_log_timestamp" = some (.long m.timestamp)
  attachment : fields.lookup "_attachment" =
    if isEmpty m.attachment then none else some (.text m.attachment)
  userAlias : fields.lookup "_alias" =
    if isEmpty m.userAlias then none else some (.text m.userAlias)

lemma columnKey_col (layout : Option Layout) (index : ℕ) (col : String) :
    "_col".toList <+: (columnKey layout index col).toList := by
  unfold columnKey
  split
  · next layoutItem value h =>
    rw [String.toList_append]
    exact (by decide : "_col".toList <+: "_col_".toList).trans (List.prefix_append _ _)
  · rw [String.toList_append]
    exact List.prefix_append _ _

lemma ownFields_baseFields (m : LogMessage) : OwnFields m (baseFields m : Fields Double) := by
  have hne : ∀ {k k' : String} (x : FieldValue Double) (fields : Fields Double), k ≠ k' →
      (addAdditionalField k' x fields).lookup k = fields.lookup k :=
    fun x fields h => AList.lookup_insert_ne h
  have heq : ∀ {k : String} (x : FieldValue Double) (fields : Fields Double),
      (addAdditionalField k x fields).lookup k = some x := fun x fields => AList.lookup_insert _
  unfold baseFields
  constructor
  all_goals
    simp only
    split_ifs <;> simp (disch := decide) only [hne, heq, AList.lookup_empty]

/-- Fields that agree but for those of columns. -/
lemma OwnFields.of_eq {m : LogMessage} {fields fields' : Fields Double} (h : OwnFields m fields)
    (heq : ∀ k : String, ¬ "_col".toList <+: k.toList → fields'.lookup k = fields.lookup k) :
    OwnFields m fields' where
  tag := (heq "_tag" (by decide)).trans h.tag
  platform := (heq "_platform" (by decide)).trans h.platform
  uid := (heq "_uid" (by decide)).trans h.uid
  appId := (heq "_app_id" (by decide)).trans h.appId
  level := (heq "_log_level" (by decide)).trans h.level
  loggerName := (heq "_log_name" (by decide)).trans h.loggerName
  timestamp := (heq "_log_timestamp" (by decide)).trans h.timestamp
  attachment := (heq "_attachment" (by decide)).trans h.attachment
  userAlias := (heq "_alias" (by decide)).trans h.userAlias

/-- **What a message is made of.** For a log message with a text and a layout that is empty or
well-formed: no message is created exactly when a column that is to be a number is none; and if
one is created, its `_col` fields are those of the columns, the last one of a name counting, and
its other fields have the values of the log message. -/
theorem createMessage_columns (D : Doubles Double) (first : FirstEntry) (c : LayoutCache)
    (m : LogMessage) (msg : String) (layout : Option Layout) (hmessage : m.message = some msg)
    (hlayout : layoutOf m.msgLayout = .ok layout) :
    ∃ c' g, createMessage D first c m = .ok (c', g) ∧
      (g = none ↔ ∃ col ∈ split '|' msg, Unreadable D layout col) ∧
      ∀ message ∈ g,
        (∀ k x, "_col".toList <+: k.toList → (message.additionalFields.lookup k = some x ↔
          ∃ i col, IsLast layout (split '|' msg) k i col ∧ columnValue D layout col = some x)) ∧
        OwnFields m message.additionalFields := by
  obtain ⟨c', hcreate⟩ := createMessage_of_layout D first c m hmessage hlayout
  have hbehind := behind_foldl D layout (baseFields m) (split '|' msg)
  refine ⟨c', gelfMessage D m msg layout, hcreate, ?_, ?_⟩
  · rw [← hbehind.formatError, gelfMessage]
    split_ifs with herror <;> simp [herror]
  · intro message hmem
    obtain ⟨herror, hfields⟩ := fields_of_gelfMessage hmem
    rw [hfields]
    constructor
    · intro k x hk
      constructor
      · intro hx
        by_cases hsome : ∃ i col, (split '|' msg)[i]? = some col ∧
            columnKey layout (i + 1) col = k
        · obtain ⟨i, col, hget, hkey⟩ := hsome
          obtain ⟨j, col', hlast⟩ := exists_isLast hget hkey
          refine ⟨j, col', hlast, ?_⟩
          rw [← hbehind.last herror k j col' hlast, hx]
        · have hnone : ∀ i col, (split '|' msg)[i]? = some col → columnKey layout (i + 1) col ≠ k :=
            fun i col hget hkey => hsome ⟨i, col, hget, hkey⟩
          rw [hbehind.other k hnone, lookup_baseFields m hk] at hx
          cases hx
      · rintro ⟨i, col, hlast, hvalue⟩
        rw [hbehind.last herror k i col hlast, hvalue]
    · refine (ownFields_baseFields m).of_eq fun k hk => hbehind.other k fun i col _ hkey => hk ?_
      rw [← hkey]
      exact columnKey_col layout (i + 1) col

/-- A layout with one number. -/
def oneNumber : List Item := [⟨"n", "size", .number 0⟩]

lemma encodable_oneNumber : Encodable oneNumber where
  nonempty := by decide
  abbreviations := by decide
  fullNames := by decide
  abbreviation := by decide
  fullName := by decide
  number := by
    intro item hi n hv
    obtain rfl := List.mem_singleton.mp hi
    cases hv
    decide
  string := by
    intro item hi s hv
    obtain rfl := List.mem_singleton.mp hi
    cases hv

/-- A message whose one column is to be a number. -/
def wordForNumber : LogMessage :=
  .create 1 (some "u") (some "app") (some "log") (some "n,size,%n") 3 0 (some "t")
    (some "n:x") none none

theorem createMessage_columns_wordForNumber :
    ∃ c', createMessage noDoubles (fun _ => none) .empty wordForNumber = .ok (c', none) := by
  obtain ⟨layout, hlayout, hitems⟩ := encodable_oneNumber.layout
  have hitem : layout.getItem "n" = some ⟨"n", "size", .number⟩ := hitems _ List.mem_cons_self
  have hsplit : splitInTwo ':' "n:x" = ["n", "x"] := by decide
  obtain ⟨c', g, hcreate, hnone, -⟩ := createMessage_columns noDoubles (fun _ => none) .empty
    wordForNumber "n:x" (some layout) rfl hlayout
  refine ⟨c', ?_⟩
  rw [hcreate, hnone.mpr ⟨"n:x", by decide, ⟨"n", "size", .number⟩, "x", ?_, rfl, by decide,
    by decide, rfl⟩]
  simp [resolve, hsplit, hitem]

end Logful.ColumnFields
