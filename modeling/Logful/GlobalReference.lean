import Logful.JavaText
import Mathlib.Data.List.AList

/-!
`Layout`, `LayoutItem` and the cache of layouts in `GlobalReference`.

A cache is a structure that carries the reason why it may be used at all: what it holds for
a template is what the template is parsed into.
-/

namespace Logful.GlobalReference

open Logful.JavaText

/-! ### Layouts -/

inductive ItemType
  | number | string
  deriving DecidableEq

structure LayoutItem where
  abbreviation : String
  fullName : String
  type : ItemType
  deriving DecidableEq

abbrev ItemMap := AList fun _ : String => LayoutItem

structure Layout where
  itemMap : ItemMap

/-- `getType`, with the text of its `IllegalArgumentException`. -/
def getType (typeString : String) : Except String ItemType :=
  if equalsIgnoreCase typeString "%s" then .ok .string
  else if equalsIgnoreCase typeString "%n" then .ok .number
  else .error "Layout template element type set error"

/-- The item of one element of a template. -/
def getElement (element : String) : Except String LayoutItem :=
  match split ',' element with
  | [abbreviation, fullName, typeString] =>
    (getType typeString).map fun type => ⟨abbreviation, fullName, type⟩
  | _ => .error "Layout template format is not correct"

/-- The constructor `Layout(template)`. -/
def Layout.new (template : String) : Except String Layout :=
  ((split '|' template).foldlM (fun (m : ItemMap) element =>
    (getElement element).map fun item => m.insert item.abbreviation item) ∅).map Layout.mk

def Layout.getItem (l : Layout) (abbr : String) : Option LayoutItem := l.itemMap.lookup abbr

/-! ### GlobalReference -/

def MAX_CAPACITY : ℕ := 1000

abbrev LayoutMap := AList fun _ : String => Layout

/-- What `layoutMap` holds for a template is the layout of the template. -/
structure LayoutCache where
  layoutMap : LayoutMap
  sound : ∀ template layout, layoutMap.lookup template = some layout →
    Layout.new template = .ok layout

def LayoutCache.empty : LayoutCache where
  layoutMap := ∅
  sound := fun template layout h => by simp at h

/-- The entry an iteration over the map begins with. -/
abbrev FirstEntry := LayoutMap → Option String

/-- `n` times the first entry is removed. -/
def LayoutCache.evict (first : FirstEntry) : ℕ → LayoutCache → LayoutCache
  | 0, c => c
  | n + 1, c =>
    match first c.layoutMap with
    | none => c
    | some key => evict first n
      { layoutMap := c.layoutMap.erase key
        sound := fun template layout h => by
          by_cases hk : template = key
          · rw [hk, AList.lookup_erase] at h
            cases h
          · rw [AList.lookup_erase_ne hk] at h
            exact c.sound template layout h }

def LayoutCache.put (c : LayoutCache) (template : String) (layout : Layout)
    (h : Layout.new template = .ok layout) : LayoutCache where
  layoutMap := c.layoutMap.insert template layout
  sound := fun t l ht => by
    by_cases hk : t = template
    · rw [hk, AList.lookup_insert, Option.some_inj] at ht
      rw [hk, h, ht]
    · rw [AList.lookup_insert_ne hk] at ht
      exact c.sound t l ht

/-- The layout of a template that is not in the map, and the cache with it put there. -/
def LayoutCache.load (first : FirstEntry) (c : LayoutCache) (template : String) :
    Except String (LayoutCache × Layout) :=
  match h : Layout.new template with
  | .error e => .error e
  | .ok layout =>
    let size := c.layoutMap.keys.length
    let evicted := if MAX_CAPACITY ≤ size then c.evict first (size - MAX_CAPACITY) else c
    .ok (evicted.put template layout h, layout)

/-- `getLayout`: the cache afterwards and the layout, absent for an empty template, or the
exception of the constructor. -/
def getLayout (first : FirstEntry) (c : LayoutCache) (template : Option String) :
    Except String (LayoutCache × Option Layout) :=
  match template with
  | none => .ok (c, none)
  | some t =>
    if t = "" then .ok (c, none)
    else
      match c.layoutMap.lookup t with
      | some layout => .ok (c, some layout)
      | none => (c.load first t).map fun p => (p.1, some p.2)

/-- The layout of a template without the cache. -/
def layoutOf (template : Option String) : Except String (Option Layout) :=
  match template with
  | none => .ok none
  | some t => if t = "" then .ok none else (Layout.new t).map some

lemma LayoutCache.load_snd (first : FirstEntry) (c : LayoutCache) (template : String) :
    (c.load first template).map Prod.snd = Layout.new template := by
  unfold load
  split
  · next h => exact h.symm
  · next h => exact h.symm

/-- **The cache cannot be seen** in what `getLayout` returns or throws. -/
theorem getLayout_snd (first : FirstEntry) (c : LayoutCache) (template : Option String) :
    (getLayout first c template).map Prod.snd = layoutOf template := by
  unfold getLayout layoutOf
  cases template with
  | none => rfl
  | some t =>
    by_cases ht : t = ""
    · simp [ht, Except.map]
    · simp only [ht, if_false]
      cases hl : c.layoutMap.lookup t with
      | some layout =>
        rw [c.sound t layout hl]
        rfl
      | none =>
        rw [← c.load_snd first t]
        cases c.load first t <;> rfl

end Logful.GlobalReference
