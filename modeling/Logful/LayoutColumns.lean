import Logful.GraylogRetry

/-!
Columns that a client writes, and the fields they become.

A client writes a message as columns of an abbreviation and a value, and sends the layout of
its columns along: the abbreviation, the full name and the type of each. Decoding the columns
with the layout gives back the values under the full names.
-/

namespace Logful.LayoutColumns

open Logful.Entity Logful.GlobalReference Logful.GraylogClientService Logful.JavaText
open Logful.GraylogRetry (noDoubles)

variable {Double : Type}

/-! ### The encoding -/

inductive Value
  | number (n : ℤ)
  | string (s : String)
  deriving DecidableEq

/-- An item of a layout, with the value of its column. -/
structure Item where
  abbreviation : String
  fullName : String
  value : Value
  deriving DecidableEq

def Value.type : Value → ItemType
  | .number _ => .number
  | .string _ => .string

def Value.sign : Value → String
  | .number _ => "%n"
  | .string _ => "%s"

def Value.text : Value → String
  | .number n => toString n
  | .string s => s

def Item.layoutItem (item : Item) : LayoutItem :=
  ⟨item.abbreviation, item.fullName, item.value.type⟩

def Item.element (item : Item) : String :=
  ",".intercalate [item.abbreviation, item.fullName, item.value.sign]

def Item.column (item : Item) : String := item.abbreviation ++ ":" ++ item.value.text

def template (items : List Item) : String := "|".intercalate (items.map Item.element)

def message (items : List Item) : String := "|".intercalate (items.map Item.column)

/-- What the layout and the columns can be told apart in. -/
structure Encodable (items : List Item) : Prop where
  nonempty : items ≠ []
  abbreviations : (items.map Item.abbreviation).Nodup
  fullNames : (items.map Item.fullName).Nodup
  abbreviation : ∀ item ∈ items, ',' ∉ item.abbreviation.toList ∧ '|' ∉ item.abbreviation.toList ∧
    ':' ∉ item.abbreviation.toList
  fullName : ∀ item ∈ items, ',' ∉ item.fullName.toList ∧ '|' ∉ item.fullName.toList
  number : ∀ item ∈ items, ∀ n, item.value = .number n → -2 ^ 63 ≤ n ∧ n < 2 ^ 63
  string : ∀ item ∈ items, ∀ s, item.value = .string s → '|' ∉ s.toList

/-- The field of a value. An integer that fits is an `Integer`, and a `Long` otherwise. -/
def Value.field : Value → FieldValue Double
  | .number n => if -2 ^ 31 ≤ n ∧ n < 2 ^ 31 then .int n else .long n
  | .string s => .text (some s)

def Item.key (item : Item) : String := "_col_" ++ item.fullName

/-! ### The layout -/

variable {items : List Item} {item : Item}

lemma pipe_notMem_toString (n : ℤ) : '|' ∉ (toString n).toList := by
  have hdigits : ∀ m : ℕ, '|' ∉ m.repr.toList := by
    intro m hm
    rw [Nat.toList_repr] at hm
    exact absurd (Nat.isDigit_of_mem_toDigits (by decide) (by decide) hm) (by decide)
  rw [Int.toString_eq_repr, Int.repr_eq_if]
  split_ifs
  · exact hdigits _
  · simpa using hdigits _

lemma Encodable.element (h : Encodable items) (hi : item ∈ items) :
    '|' ∉ item.element.toList ∧ item.element ≠ "" ∧
      getElement item.element = .ok item.layoutItem := by
  obtain ⟨hcomma, hpipe, -⟩ := h.abbreviation item hi
  obtain ⟨hcomma', hpipe'⟩ := h.fullName item hi
  have hsign : ',' ∉ item.value.sign.toList ∧ '|' ∉ item.value.sign.toList ∧
      item.value.sign ≠ "" ∧ getType item.value.sign = .ok item.value.type := by
    cases item.value with
    | number n => exact (by decide : ',' ∉ "%n".toList ∧ '|' ∉ "%n".toList ∧ "%n" ≠ "" ∧
        getType "%n" = .ok .number)
    | string s => exact (by decide : ',' ∉ "%s".toList ∧ '|' ∉ "%s".toList ∧ "%s" ≠ "" ∧
        getType "%s" = .ok .string)
  have hsplit : split ',' item.element = [item.abbreviation, item.fullName, item.value.sign] := by
    refine split_intercalate (by simp) ?_ (by simpa using hsign.2.2.1)
    simpa using ⟨hcomma, hcomma', hsign.1⟩
  refine ⟨?_, ?_, ?_⟩
  · simp [Item.element, hpipe, hpipe', hsign.2.1]
  · intro hempty
    have hlength := congrArg (fun s => s.toList.length) hempty
    simp [Item.element] at hlength
  · rw [getElement, hsplit]
    simp only [hsign.2.2.2]
    rfl

lemma split_template (h : Encodable items) :
    split '|' (template items) = items.map Item.element := by
  refine split_intercalate (by simpa using h.nonempty) ?_ ?_
  · intro p hp
    obtain ⟨item, hi, rfl⟩ := List.mem_map.mp hp
    exact (h.element hi).1
  · intro p hp
    obtain ⟨item, hi, rfl⟩ := List.mem_map.mp (List.mem_of_mem_getLast? hp)
    exact (h.element hi).2.1

/-- The loop of the constructor over the elements of items with abbreviations of their own. -/
lemma foldlM_element (hitems : ∀ item ∈ items, getElement item.element = .ok item.layoutItem)
    (hnodup : (items.map Item.abbreviation).Nodup) (m : ItemMap) :
    ∃ m' : ItemMap, (items.map Item.element).foldlM (fun (m : ItemMap) element =>
        (getElement element).map fun item => m.insert item.abbreviation item) m = .ok m' ∧
      (∀ item ∈ items, m'.lookup item.abbreviation = some item.layoutItem) ∧
      ∀ k ∉ items.map Item.abbreviation, m'.lookup k = m.lookup k := by
  induction items generalizing m with
  | nil => exact ⟨m, rfl, by simp, fun _ _ => rfl⟩
  | cons item items ih =>
    rw [List.map_cons, List.nodup_cons] at hnodup
    obtain ⟨m', hfold, hlookup, hother⟩ := ih
      (fun d hd => hitems d (List.mem_cons_of_mem item hd)) hnodup.2
      (m.insert item.abbreviation item.layoutItem)
    refine ⟨m', ?_, ?_, ?_⟩
    · rw [List.map_cons, List.foldlM_cons, hitems item List.mem_cons_self]
      exact hfold
    · intro d hd
      rcases List.mem_cons.mp hd with rfl | hd
      · rw [hother _ hnodup.1, AList.lookup_insert]
      · exact hlookup d hd
    · intro k hk
      rw [List.map_cons, List.mem_cons, not_or] at hk
      rw [hother k hk.2, AList.lookup_insert_ne hk.1]

/-- The layout of a template has the items that it was made from. -/
theorem Encodable.layout (h : Encodable items) :
    ∃ layout, layoutOf (some (template items)) = .ok (some layout) ∧
      ∀ item ∈ items, layout.getItem item.abbreviation = some item.layoutItem := by
  obtain ⟨m, hfold, hlookup, -⟩ :=
    foldlM_element (fun item hi => (h.element hi).2.2) h.abbreviations ∅
  refine ⟨⟨m⟩, ?_, hlookup⟩
  have hne : template items ≠ "" := by
    intro hempty
    have hsplit := split_template h
    rw [hempty] at hsplit
    have hmem : "" ∈ items.map Item.element := by
      rw [← hsplit]
      decide
    obtain ⟨item, hi, heq⟩ := List.mem_map.mp hmem
    exact (h.element hi).2.1 heq
  rw [layoutOf]
  simp only [hne, if_false, Layout.new, split_template h, hfold]
  rfl

/-! ### The columns -/

lemma Encodable.column (h : Encodable items) (hi : item ∈ items) :
    '|' ∉ item.column.toList ∧ item.column ≠ "" ∧
      splitInTwo ':' item.column = [item.abbreviation, item.value.text] := by
  obtain ⟨-, hpipe, hcolon⟩ := h.abbreviation item hi
  have htext : '|' ∉ item.value.text.toList := by
    cases hv : item.value with
    | number n => exact pipe_notMem_toString n
    | string s => exact h.string item hi s hv
  refine ⟨?_, ?_, splitInTwo_append hcolon _⟩
  · simp [Item.column, hpipe, htext]
  · intro hempty
    have hlength := congrArg (fun s => s.toList.length) hempty
    simp [Item.column] at hlength

lemma split_message (h : Encodable items) :
    split '|' (message items) = items.map Item.column := by
  refine split_intercalate (by simpa using h.nonempty) ?_ ?_
  · intro p hp
    obtain ⟨item, hi, rfl⟩ := List.mem_map.mp hp
    exact (h.column hi).1
  · intro p hp
    obtain ⟨item, hi, rfl⟩ := List.mem_map.mp (List.mem_of_mem_getLast? hp)
    exact (h.column hi).2.1

/-- A 64-bit integer is read back by `parse`. -/
lemma parse_toString (D : Doubles Double) {n : ℤ} (hn : -2 ^ 63 ≤ n ∧ n < 2 ^ 63) :
    parse D (toString n) = some (Value.number n).field := by
  have hint : parseInt (toString n) = if -2 ^ 31 ≤ n ∧ n < 2 ^ 31 then some n else none :=
    parseSigned_toString 32 n
  have hlong : parseLong (toString n) = if -2 ^ 63 ≤ n ∧ n < 2 ^ 63 then some n else none :=
    parseSigned_toString 64 n
  rw [if_pos hn] at hlong
  by_cases hfits : -2 ^ 31 ≤ n ∧ n < 2 ^ 31
  · rw [if_pos hfits] at hint
    simp only [parse, hint, Value.field, if_pos hfits]
  · rw [if_neg hfits] at hint
    simp only [parse, hint, hlong, Value.field, if_neg hfits]

/-- One column becomes the field of its item. -/
lemma step_column (D : Doubles Double) (h : Encodable items) (hi : item ∈ items)
    {layout : Layout} (hlayout : layout.getItem item.abbreviation = some item.layoutItem)
    (s : Columns Double) : Columns.step D (some layout) s item.column =
      ⟨s.index + 1, s.fields.insert item.key item.value.field, s.formatError⟩ := by
  have hsplit := (h.column hi).2.2
  unfold Columns.step
  rw [hsplit]
  simp only [hlayout]
  cases hv : item.value with
  | number n =>
    simp only [Item.layoutItem, hv, Value.type, Value.text,
      parse_toString D (h.number item hi n hv)]
    rfl
  | string s =>
    simp only [Item.layoutItem, hv, Value.type, Value.text]
    rfl

/-- The loop over the columns. -/
lemma foldl_column (D : Doubles Double) (h : Encodable items) {layout : Layout}
    (hlayout : ∀ item ∈ items, layout.getItem item.abbreviation = some item.layoutItem)
    {l : List Item} (hl : l ⊆ items) (hnodup : (l.map Item.key).Nodup) (s : Columns Double) :
    ((l.map Item.column).foldl (Columns.step D (some layout)) s).formatError = s.formatError ∧
      (∀ item ∈ l, ((l.map Item.column).foldl (Columns.step D (some layout)) s).fields.lookup
        item.key = some item.value.field) ∧
      ∀ k ∉ l.map Item.key, ((l.map Item.column).foldl (Columns.step D (some layout))
        s).fields.lookup k = s.fields.lookup k := by
  induction l generalizing s with
  | nil => exact ⟨rfl, by simp, fun _ _ => rfl⟩
  | cons item l ih =>
    rw [List.map_cons, List.nodup_cons] at hnodup
    have hi : item ∈ items := hl List.mem_cons_self
    rw [List.map_cons, List.foldl_cons, step_column D h hi (hlayout item hi)]
    obtain ⟨herror, hlookup, hother⟩ := ih (fun d hd => hl (List.mem_cons_of_mem item hd)) hnodup.2
      ⟨s.index + 1, s.fields.insert item.key item.value.field, s.formatError⟩
    refine ⟨herror, fun d hd => ?_, fun k hk => ?_⟩
    · rcases List.mem_cons.mp hd with rfl | hd
      · rw [hother _ hnodup.1, AList.lookup_insert]
      · exact hlookup d hd
    · rw [List.map_cons, List.mem_cons, not_or] at hk
      rw [hother k hk.2, AList.lookup_insert_ne hk.1]

/-! ### Decoding -/

lemma Encodable.keys (h : Encodable items) : (items.map Item.key).Nodup := by
  have hmap : items.map Item.key = (items.map Item.fullName).map fun name => "_col_" ++ name := by
    rw [List.map_map]
    rfl
  rw [hmap]
  refine h.fullNames.map fun name name' heq => ?_
  exact String.toList_inj.mp (by simpa using congrArg String.toList heq)

/-- None of the fields that every message has is one of a column. -/
lemma lookup_baseFields (m : LogMessage) {k : String} (hk : "_col".toList <+: k.toList) :
    (baseFields m : Fields Double).lookup k = none := by
  have hadd : ∀ (name : String) (value : FieldValue Double) (fields : Fields Double),
      ¬ "_col".toList <+: name.toList →
        (addAdditionalField name value fields).lookup k = fields.lookup k := by
    intro name value fields hname
    refine AList.lookup_insert_ne ?_
    rintro rfl
    exact hname hk
  unfold baseFields
  simp only
  split_ifs <;> simp (disch := decide) only [hadd, AList.lookup_empty]

/-- **Decoding undoes the encoding.** For columns and a layout that a client has made of the same
items, whatever the layout cache holds, a message is created, and its fields that begin with
`_col` are the values of the items under their full names. -/
theorem createMessage_encoded (D : Doubles Double) (first : FirstEntry) (c : LayoutCache)
    (m : LogMessage) (items : List Item) (h : Encodable items)
    (hmessage : m.message = some (message items)) (hlayout : m.msgLayout = some (template items)) :
    ∃ c' g, createMessage D first c m = .ok (c', some g) ∧
      ∀ k x, "_col".toList <+: k.toList → (g.additionalFields.lookup k = some x ↔
        ∃ item ∈ items, k = item.key ∧ x = item.value.field) := by
  obtain ⟨layout, hlayoutOf, hitems⟩ := h.layout
  rw [← hlayout] at hlayoutOf
  obtain ⟨c', hcreate⟩ := createMessage_of_layout D first c m hmessage hlayoutOf
  obtain ⟨herror, hlookup, hother⟩ := foldl_column D h hitems (List.Subset.refl items) h.keys
    ⟨1, baseFields m, false⟩
  obtain ⟨g, hg, hfields⟩ : ∃ g, gelfMessage D m (message items) (some layout) = some g ∧
      g.additionalFields = ((items.map Item.column).foldl (Columns.step D (some layout))
        ⟨1, baseFields m, false⟩).fields := by
    simp only [gelfMessage, split_message h, herror, Bool.false_eq_true, if_false]
    exact ⟨_, rfl, rfl⟩
  refine ⟨c', g, ?_, ?_⟩
  · rw [hcreate, hg]
  · intro k x hk
    rw [hfields]
    constructor
    · intro hx
      by_cases hmem : k ∈ items.map Item.key
      · obtain ⟨item, hi, rfl⟩ := List.mem_map.mp hmem
        rw [hlookup item hi, Option.some_inj] at hx
        exact ⟨item, hi, rfl, hx.symm⟩
      · rw [hother k hmem, lookup_baseFields m hk] at hx
        cases hx
    · rintro ⟨item, hi, rfl, rfl⟩
      exact hlookup item hi

/-- A string with a colon, an empty one under an empty name, and an integer of 64 bits. -/
def threeItems : List Item :=
  [⟨"u", "url", .string "http://a"⟩, ⟨"", "", .string ""⟩, ⟨"n", "size", .number (-2 ^ 31 - 1)⟩]

lemma encodable_threeItems : Encodable threeItems where
  nonempty := by decide
  abbreviations := by decide
  fullNames := by decide
  abbreviation := by decide
  fullName := by decide
  number := by
    intro item hi n hv
    simp only [threeItems, List.mem_cons, List.not_mem_nil, or_false] at hi
    rcases hi with rfl | rfl | rfl <;> cases hv
    decide
  string := by
    intro item hi s hv
    simp only [threeItems, List.mem_cons, List.not_mem_nil, or_false] at hi
    rcases hi with rfl | rfl | rfl <;> cases hv <;> decide

/-- The log message of the three items. -/
def threeColumns : LogMessage :=
  .create 1 (some "u") (some "app") (some "log") (some "u,url,%s|,,%s|n,size,%n") 3 0 (some "t")
    (some "u:http://a|:|n:-2147483649") none none

theorem createMessage_encoded_threeItems :
    ∃ c' g, createMessage noDoubles (fun _ => none) .empty threeColumns = .ok (c', some g) ∧
      g.additionalFields.lookup "_col_url" = some (.text (some "http://a")) ∧
      g.additionalFields.lookup "_col_" = some (.text (some "")) ∧
      g.additionalFields.lookup "_col_size" = some (.long (-2147483649)) := by
  obtain ⟨c', g, hcreate, hfields⟩ := createMessage_encoded noDoubles (fun _ => none) .empty
    threeColumns threeItems encodable_threeItems (by decide) (by decide)
  refine ⟨c', g, hcreate, ?_, ?_, ?_⟩
  · exact (hfields _ _ (by decide)).mpr ⟨_, List.mem_cons_self, by decide, rfl⟩
  · exact (hfields _ _ (by decide)).mpr ⟨⟨"", "", .string ""⟩, by decide, by decide, rfl⟩
  · exact (hfields _ _ (by decide)).mpr ⟨⟨"n", "size", .number (-2 ^ 31 - 1)⟩, by decide,
      by decide, by decide⟩

end Logful.LayoutColumns
