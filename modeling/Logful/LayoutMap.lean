import Logful.GlobalReference
import Mathlib.Data.Finset.Option

/-!
`GlobalReference.getLayout` on the bare map, over any sequence of calls.

The map is a plain `HashMap` that every call may change, and `getLayout` of a cache is what the
same statements do on a map of which it is known what it holds. From the empty map on, a call
answers as a fresh `new Layout(template)` would, whatever was asked for and removed before.

Entries are removed down to the capacity, and then one is put in. So the map outgrows the capacity
by one entry, as soon as layouts of more templates than that have been asked for.
-/

namespace Logful.LayoutMap

open Logful.GlobalReference Logful.JavaText

/-- The loop that removes `n` entries, each the first one that an iteration comes to. -/
def evict (first : FirstEntry) : ℕ → LayoutMap → LayoutMap
  | 0, m => m
  | n + 1, m =>
    match first m with
    | none => m
    | some key => evict first n (m.erase key)

/-- `getLayout`: the map afterwards, and what is returned or the text of the exception. -/
def getLayout (first : FirstEntry) (template : Option String) (m : LayoutMap) :
    LayoutMap × Except String (Option Layout) :=
  match template with
  | none => (m, .ok none)
  | some t =>
    if t = "" then (m, .ok none)
    else
      match m.lookup t with
      | some layout => (m, .ok (some layout))
      | none =>
        match Layout.new t with
        | .error e => (m, .error e)
        | .ok layout =>
          let size := m.keys.length
          let m := if MAX_CAPACITY ≤ size then evict first (size - MAX_CAPACITY) m else m
          (m.insert t layout, .ok (some layout))

/-- A call, with the entries that it will find first when it has to remove some. -/
structure Call where
  first : FirstEntry
  template : Option String

/-- The map after some calls, the first of them on the empty map. -/
def after (calls : List Call) : LayoutMap :=
  calls.foldl (fun m call => (getLayout call.first call.template m).1) ∅

/-! ### The map is that of a cache -/

lemma evict_layoutMap (first : FirstEntry) (n : ℕ) (c : LayoutCache) :
    evict first n c.layoutMap = (c.evict first n).layoutMap := by
  induction n generalizing c with
  | zero => rfl
  | succ n ih =>
    cases hf : first c.layoutMap with
    | none => simp [evict, LayoutCache.evict, hf]
    | some key =>
      simp only [evict, LayoutCache.evict, hf]
      exact ih ⟨c.layoutMap.erase key, _⟩

lemma load_error {first : FirstEntry} {c : LayoutCache} {t e : String}
    (h : Layout.new t = .error e) : c.load first t = .error e := by
  unfold LayoutCache.load
  split
  · next hnew =>
    rw [h] at hnew
    cases hnew
    rfl
  · next hnew =>
    rw [h] at hnew
    cases hnew

lemma load_ok (first : FirstEntry) (c : LayoutCache) {t : String} {layout : Layout}
    (h : Layout.new t = .ok layout) : ∃ c' : LayoutCache, c.load first t = .ok (c', layout) ∧
      c'.layoutMap = (if MAX_CAPACITY ≤ c.layoutMap.keys.length then
        evict first (c.layoutMap.keys.length - MAX_CAPACITY) c.layoutMap
        else c.layoutMap).insert t layout := by
  unfold LayoutCache.load
  split
  · next hnew =>
    rw [h] at hnew
    cases hnew
  · next hnew =>
    rw [h] at hnew
    cases hnew
    refine ⟨_, rfl, ?_⟩
    rw [evict_layoutMap]
    simp only [LayoutCache.put]
    split_ifs <;> rfl

/-- What a call does on the map of a cache is what it does on the cache, and a call that throws
leaves the map as it was. -/
theorem getLayout_layoutMap (first : FirstEntry) (template : Option String) (c : LayoutCache) :
    getLayout first template c.layoutMap =
      match GlobalReference.getLayout first c template with
      | .ok (c', layout) => (c'.layoutMap, .ok layout)
      | .error e => (c.layoutMap, .error e) := by
  unfold getLayout GlobalReference.getLayout
  cases template with
  | none => rfl
  | some t =>
    by_cases ht : t = ""
    · simp [ht]
    · simp only [ht, if_false]
      cases c.layoutMap.lookup t with
      | some layout => rfl
      | none =>
        cases hnew : Layout.new t with
        | error e =>
          simp only [load_error hnew]
          rfl
        | ok layout =>
          obtain ⟨c', hload, hmap⟩ := load_ok first c hnew
          simp only [hload, Except.map, hmap]

lemma after_eq (calls : List Call) : ∃ c : LayoutCache, after calls = c.layoutMap := by
  induction calls using List.reverseRecOn with
  | nil => exact ⟨.empty, rfl⟩
  | append_singleton calls call ih =>
    obtain ⟨c, hc⟩ := ih
    rw [after, List.foldl_append, ← after, hc, List.foldl_cons, List.foldl_nil,
      getLayout_layoutMap]
    cases GlobalReference.getLayout call.first c call.template with
    | error e => exact ⟨c, rfl⟩
    | ok p => exact ⟨p.1, rfl⟩

/-- What a call answers is what the path without a cache does, and a call that throws leaves the
map as it was. -/
lemma getLayout_after (calls : List Call) (call : Call) :
    (getLayout call.first call.template (after calls)).2 = layoutOf call.template ∧
      ∀ e, (getLayout call.first call.template (after calls)).2 = .error e →
        (getLayout call.first call.template (after calls)).1 = after calls := by
  obtain ⟨c, hc⟩ := after_eq calls
  rw [hc, getLayout_layoutMap, ← getLayout_snd call.first c call.template]
  cases GlobalReference.getLayout call.first c call.template with
  | error e => exact ⟨rfl, fun _ _ => rfl⟩
  | ok p => exact ⟨rfl, fun e he => by cases he⟩

/-- **The cache is transparent.** After any calls, whatever their templates were and whichever
entries were removed, a call answers as the path without a cache: null for an empty template, the
exception exactly when the constructor throws it, and otherwise a layout with the items of a fresh
one; and a call that throws leaves the map as it was. -/
theorem getLayout_transparent (calls : List Call) (call : Call) :
    (call.template = none ∨ call.template = some "" →
      (getLayout call.first call.template (after calls)).2 = .ok none) ∧
    (∀ t, call.template = some t → t ≠ "" →
      (∀ e, (getLayout call.first call.template (after calls)).2 = .error e ↔
        Layout.new t = .error e) ∧
      ∀ fresh, Layout.new t = .ok fresh → ∃ layout,
        (getLayout call.first call.template (after calls)).2 = .ok (some layout) ∧
          ∀ abbr, layout.getItem abbr = fresh.getItem abbr) ∧
    ∀ e, (getLayout call.first call.template (after calls)).2 = .error e →
      (getLayout call.first call.template (after calls)).1 = after calls := by
  obtain ⟨hanswer, hkept⟩ := getLayout_after calls call
  refine ⟨fun hempty => ?_, fun t ht hne => ?_, hkept⟩
  · rw [hanswer]
    rcases hempty with h | h <;> rw [h] <;> rfl
  · rw [hanswer, ht, layoutOf]
    simp only [hne, if_false]
    constructor
    · intro e
      cases Layout.new t <;> simp [Except.map]
    · intro fresh hfresh
      rw [hfresh]
      exact ⟨fresh, rfl, fun _ => rfl⟩

/-! ### The size of the map -/

/-- The template is one that a layout is made of. -/
def loads (t : String) : Bool := t ≠ "" && (Layout.new t).isOk

/-- The templates of the calls that a layout was asked for of. -/
def templates (calls : List Call) : Finset String :=
  (calls.filterMap fun call => call.template.filter loads).toFinset

variable {first : FirstEntry} {m : LayoutMap} {calls : List Call} {call : Call} {t : String}

lemma length_evict (first : FirstEntry) (n : ℕ) (m : LayoutMap) :
    m.keys.length - n ≤ (evict first n m).keys.length := by
  induction n generalizing m with
  | zero => exact Nat.sub_le _ _
  | succ n ih =>
    rw [evict]
    cases first m with
    | none => exact Nat.sub_le _ _
    | some key =>
      have herase := ih (m.erase key)
      have hlen : m.keys.length - 1 ≤ (m.erase key).keys.length := by
        rw [AList.keys_erase, List.length_erase]
        split <;> omega
      simp only
      omega

lemma mem_of_mem_evict {n : ℕ} (h : t ∈ evict first n m) : t ∈ m := by
  induction n generalizing m with
  | zero => exact h
  | succ n ih =>
    rw [evict] at h
    cases hf : first m with
    | none => simpa [hf] using h
    | some key =>
      simp only [hf] at h
      exact (AList.mem_erase.mp (ih h)).2

lemma length_insert (layout : Layout) (h : t ∉ m) :
    (m.insert t layout).keys.length = m.keys.length + 1 := by
  have hkeys : t ∉ m.keys := mt AList.mem_keys.mpr h
  rw [AList.keys_insert, List.erase_of_not_mem hkeys, List.length_cons]

/-- A call changes the map only when it makes a layout that is not there, and puts it in then. -/
lemma getLayout_cases (first : FirstEntry) (template : Option String) (m : LayoutMap) :
    (getLayout first template m).1 = m ∧
        (∀ t, template.filter loads = some t → t ∈ m) ∨
      ∃ t layout, template.filter loads = some t ∧ t ∉ m ∧ (getLayout first template m).1 =
        (if MAX_CAPACITY ≤ m.keys.length then evict first (m.keys.length - MAX_CAPACITY) m
          else m).insert t layout := by
  unfold getLayout
  cases template with
  | none => exact .inl ⟨rfl, by simp⟩
  | some t =>
    by_cases ht : t = ""
    · exact .inl ⟨by simp [ht], by simp [ht, loads]⟩
    · simp only [ht, if_false]
      cases hl : m.lookup t with
      | some layout =>
        have hmem : t ∈ m := AList.lookup_isSome.mp (by rw [hl]; rfl)
        refine .inl ⟨rfl, fun u hu => ?_⟩
        rw [(Option.some_inj.mp (Option.filter_eq_some_iff.mp hu).1)] at hmem
        exact hmem
      | none =>
        cases hnew : Layout.new t with
        | error e => exact .inl ⟨rfl, by simp [loads, hnew, Except.isOk, Except.toBool]⟩
        | ok layout =>
          refine .inr ⟨t, layout, ?_, AList.lookup_eq_none.mp hl, rfl⟩
          simp [loads, hnew, ht, Except.isOk, Except.toBool]

lemma templates_concat (calls : List Call) (call : Call) : templates (calls ++ [call]) =
    templates calls ∪ (call.template.filter loads).toFinset := by
  ext t
  simp [templates]

lemma templates_mono {p : List Call} (hp : p <+: calls) : templates p ⊆ templates calls := by
  obtain ⟨q, rfl⟩ := hp
  intro t
  simp only [templates, List.filterMap_append, List.mem_toFinset, List.mem_append]
  exact .inl

lemma after_concat (calls : List Call) (call : Call) :
    after (calls ++ [call]) = (getLayout call.first call.template (after calls)).1 := by
  simp [after]

/-- Up to the capacity the map holds the layouts of all templates, and above it it stays above
it. -/
structure Filled (calls : List Call) (m : LayoutMap) : Prop where
  all : (templates calls).card ≤ MAX_CAPACITY → m.keys.toFinset = templates calls
  above : MAX_CAPACITY < (templates calls).card → MAX_CAPACITY < m.keys.length

lemma Filled.length_eq (h : Filled calls m) (hcard : (templates calls).card ≤ MAX_CAPACITY) :
    m.keys.length = (templates calls).card := by
  rw [← h.all hcard, List.toFinset_card_of_nodup m.keys_nodup]

/-- A template is in a map that holds all exactly when it was asked for. -/
lemma Filled.mem_iff (h : Filled calls m) (hcard : (templates calls).card ≤ MAX_CAPACITY) :
    t ∈ m ↔ t ∈ templates calls := by
  rw [AList.mem_keys, ← h.all hcard, List.mem_toFinset]

lemma filled_getLayout (h : Filled calls m) (call : Call) :
    Filled (calls ++ [call]) (getLayout call.first call.template m).1 := by
  rcases getLayout_cases call.first call.template m with
    ⟨heq, hmem⟩ | ⟨t, layout, htemplate, hnot, heq⟩
  · rw [heq]
    have hsub : templates calls ⊆ templates (calls ++ [call]) :=
      templates_mono (List.prefix_append _ _)
    -- the template is no new one, as long as the map holds all
    have hsame : (templates calls).card ≤ MAX_CAPACITY →
        templates (calls ++ [call]) = templates calls := by
      intro hcard
      rw [templates_concat, Finset.union_eq_left]
      intro u hu
      rw [Option.mem_toFinset] at hu
      exact (h.mem_iff hcard).mp (hmem u hu)
    constructor
    · intro hcard
      have hle := (Finset.card_le_card hsub).trans hcard
      rw [hsame hle]
      exact h.all hle
    · intro hcard
      by_cases hle : (templates calls).card ≤ MAX_CAPACITY
      · rw [hsame hle] at hcard
        omega
      · exact h.above (by omega)
  · rw [heq]
    have htemplates : templates (calls ++ [call]) = insert t (templates calls) := by
      rw [templates_concat, htemplate, Option.toFinset_some, Finset.union_comm]
      rfl
    have hcard : (templates calls).card ≤ MAX_CAPACITY →
        (templates (calls ++ [call])).card = (templates calls).card + 1 := by
      intro hle
      rw [htemplates, Finset.card_insert_of_notMem (mt (h.mem_iff hle).mpr hnot)]
    by_cases hfull : MAX_CAPACITY ≤ m.keys.length
    · -- the entries that are left fill the capacity, and the new one comes on top
      rw [if_pos hfull]
      have hkept := length_evict call.first (m.keys.length - MAX_CAPACITY) m
      have hlen := length_insert layout (mt mem_of_mem_evict hnot : t ∉
        evict call.first (m.keys.length - MAX_CAPACITY) m)
      constructor
      · intro hle
        rw [htemplates] at hle
        have hold := (Finset.card_le_card (Finset.subset_insert t _)).trans hle
        have hsize := h.length_eq hold
        have hone := hcard hold
        rw [htemplates] at hone
        omega
      · intro _
        omega
    · rw [if_neg hfull]
      have hold : (templates calls).card ≤ MAX_CAPACITY := by
        by_contra hmany
        have := h.above (by omega)
        omega
      have hone := hcard hold
      have hsize := h.length_eq hold
      constructor
      · intro _
        have hkeys : t ∉ m.keys := mt AList.mem_keys.mpr hnot
        rw [AList.keys_insert, List.erase_of_not_mem hkeys, List.toFinset_cons, h.all hold,
          htemplates]
      · intro hmany
        omega

lemma filled_after (calls : List Call) : Filled calls (after calls) := by
  induction calls using List.reverseRecOn with
  | nil => exact ⟨fun _ => rfl, fun h => absurd h (by simp [templates])⟩
  | append_singleton calls call ih =>
    rw [after_concat]
    exact filled_getLayout ih call

lemma length_after_le_iff (calls : List Call) :
    (after calls).keys.length ≤ MAX_CAPACITY ↔ (templates calls).card ≤ MAX_CAPACITY := by
  have hfilled := filled_after calls
  constructor
  · intro hlen
    by_contra hmany
    have := hfilled.above (by omega)
    omega
  · intro hcard
    rw [hfilled.length_eq hcard]
    exact hcard

/-- **The capacity is kept to** in all states of a run exactly when layouts of no more templates
than the capacity are asked for. -/
theorem bounded_iff_templates (calls : List Call) :
    (∀ p, p <+: calls → (after p).keys.length ≤ MAX_CAPACITY) ↔
      (templates calls).card ≤ MAX_CAPACITY := by
  constructor
  · intro h
    exact (length_after_le_iff calls).mp (h calls List.prefix_rfl)
  · intro hcard p hp
    have hle := Finset.card_le_card (templates_mono hp)
    exact (length_after_le_iff p).mpr (hle.trans hcard)

/-- An iteration over a map that is not empty begins with one of its entries. -/
def Iterates (first : FirstEntry) : Prop :=
  ∀ m : LayoutMap, m.keys ≠ [] → ∃ key ∈ m.keys, first m = some key

lemma length_evict_eq (hfirst : Iterates first) (n : ℕ) (m : LayoutMap) (hn : n ≤ m.keys.length) :
    (evict first n m).keys.length = m.keys.length - n := by
  induction n generalizing m with
  | zero => rfl
  | succ n ih =>
    obtain ⟨key, hkey, hf⟩ := hfirst m (List.ne_nil_of_length_pos (by omega))
    have hlen : (m.erase key).keys.length = m.keys.length - 1 := by
      rw [AList.keys_erase, List.length_erase_of_mem hkey]
    simp only [evict, hf]
    rw [ih (m.erase key) (by omega), hlen]
    omega

/-- The map never has more than one entry above its capacity. -/
theorem length_after_le (calls : List Call) (hfirst : ∀ call ∈ calls, Iterates call.first) :
    (after calls).keys.length ≤ MAX_CAPACITY + 1 := by
  induction calls using List.reverseRecOn with
  | nil => exact Nat.zero_le _
  | append_singleton calls call ih =>
    have hle := ih fun c hc => hfirst c (List.mem_append_left _ hc)
    rw [after_concat]
    rcases getLayout_cases call.first call.template (after calls) with
      ⟨heq, -⟩ | ⟨t, layout, -, hnot, heq⟩
    · rw [heq]
      exact hle
    · rw [heq]
      split_ifs with hfull
      · have hevict := length_evict_eq (hfirst call (by simp))
          ((after calls).keys.length - MAX_CAPACITY) (after calls) (Nat.sub_le _ _)
        rw [length_insert layout (mt mem_of_mem_evict hnot), hevict]
        omega
      · rw [length_insert layout hnot]
        omega

/-! ### A thousand and one templates -/

/-- Templates of one element, each with an abbreviation of another length. -/
def template (n : ℕ) : String :=
  (String.singleton ',').intercalate [.ofList (List.replicate n 'a'), "b", "%s"]

def manyCalls : List Call := (List.range 1001).map fun n => ⟨fun _ => none, some (template n)⟩

lemma toList_template (n : ℕ) :
    (template n).toList = List.replicate n 'a' ++ [',', 'b', ',', '%', 's'] := by
  simp [template]

lemma template_injective : Function.Injective template := by
  intro n k h
  have hlen := congrArg (fun s : String => s.toList.length) h
  simp only [toList_template, List.length_append, List.length_replicate] at hlen
  omega

lemma loads_template (n : ℕ) : loads (template n) = true := by
  have hne : template n ≠ "" := by
    intro h
    have hlist := congrArg String.toList h
    simp [toList_template] at hlist
  have hpipe : split '|' (template n) = [template n] := by
    rw [split, if_neg]
    simp [toList_template]
  have hcomma : split ',' (template n) = [.ofList (List.replicate n 'a'), "b", "%s"] := by
    refine split_intercalate (by simp) ?_ (by simp)
    simp
  have hnew : (Layout.new (template n)).isOk = true := by
    simp only [Layout.new, hpipe, List.foldlM_cons, List.foldlM_nil, getElement, hcomma]
    rfl
  simp [loads, hne, hnew]

/-- The capacity is not kept to: a layout of one template more is asked for. -/
theorem not_bounded_manyCalls : ¬ ∀ calls, (after calls).keys.length ≤ MAX_CAPACITY := by
  intro h
  have hcard := (length_after_le_iff manyCalls).mp (h manyCalls)
  have htemplates : templates manyCalls = (Finset.range 1001).image template := by
    ext t
    simp [templates, manyCalls, loads_template, Option.filter_some]
  rw [htemplates, Finset.card_image_of_injective _ template_injective, Finset.card_range] at hcard
  exact absurd hcard (by decide)

end Logful.LayoutMap
