import Mathlib.Algebra.Order.BigOperators.Group.List
import Mathlib.Algebra.Order.Ring.Nat
import Mathlib.Data.List.Nodup
import Mathlib.Data.List.Perm.Basic
import Mathlib.Data.List.Perm.Subperm
import Mathlib.Logic.Function.Basic
import Mathlib.Tactic.Common

/-!
Collections of a document store.

A collection holds documents under pairwise different ids, the oldest first. An object in
memory is an entity, whose id is absent until it has been saved. Saving replaces the
document with the id of the entity, in its place; an id that no document has, or a new one
if the entity has none, is appended.
-/

namespace Logful.Documents

/-- Where new ids come from. -/
class Supply (ι : Type*) where
  fresh : List ι → ι
  fresh_notMem : ∀ l, fresh l ∉ l

instance : Supply ℕ where
  fresh := fun l => l.sum + 1
  fresh_notMem := fun l h => by
    have hle : l.sum + 1 ≤ l.sum := List.le_sum_of_mem h
    omega

/-- Ids are only compared. -/
abbrev ObjectId := ℕ

/-- A document as it is stored. -/
structure Document (ι α : Type*) where
  id : ι
  body : α
  deriving DecidableEq

/-- An object in memory, with the id of its document if it has one. -/
structure Entity (ι α : Type*) where
  id : Option ι
  body : α
  deriving DecidableEq

structure Collection (ι α : Type*) where
  docs : List (Document ι α)
  nodup : (docs.map Document.id).Nodup

variable {ι α : Type*}

/-- The object that a stored document is read into. -/
def Document.entity (d : Document ι α) : Entity ι α := ⟨some d.id, d.body⟩

@[simp] lemma Document.entity_id (d : Document ι α) : d.entity.id = some d.id := rfl

@[simp] lemma Document.entity_body (d : Document ι α) : d.entity.body = d.body := rfl

@[ext] lemma Collection.ext {c c' : Collection ι α} (h : c.docs = c'.docs) : c = c' := by
  cases c
  cases h
  rfl

def Collection.empty : Collection ι α := ⟨[], List.nodup_nil⟩

def Collection.ids (c : Collection ι α) : List ι := c.docs.map Document.id

/-! ### Saving -/

section Save

variable [DecidableEq ι]

/-- The documents with one of them put in: in the place of the document with its id, or at
the end. -/
def put (d : Document ι α) : List (Document ι α) → List (Document ι α)
  | [] => [d]
  | e :: l => if e.id = d.id then d :: l else e :: put d l

lemma put_of_notMem {d : Document ι α} {l : List (Document ι α)}
    (h : d.id ∉ l.map Document.id) : put d l = l ++ [d] := by
  induction l with
  | nil => rfl
  | cons e l ih =>
    rw [List.map_cons, List.mem_cons, not_or] at h
    rw [put, if_neg (Ne.symm h.1), ih h.2]
    rfl

lemma ids_put_of_mem {d : Document ι α} {l : List (Document ι α)}
    (h : d.id ∈ l.map Document.id) : (put d l).map Document.id = l.map Document.id := by
  induction l with
  | nil => simp at h
  | cons e l ih =>
    rw [put]
    split_ifs with he
    · rw [List.map_cons, List.map_cons, he]
    · rw [List.map_cons, List.mem_cons] at h
      rw [List.map_cons, List.map_cons, ih (h.resolve_left (Ne.symm he))]

lemma length_le_put {d : Document ι α} {l : List (Document ι α)} :
    l.length ≤ (put d l).length := by
  by_cases h : d.id ∈ l.map Document.id
  · have hids := congrArg List.length (ids_put_of_mem h)
    rw [List.length_map, List.length_map] at hids
    exact hids.ge
  · rw [put_of_notMem h, List.length_append]
    exact Nat.le_add_right _ _

lemma nodup_put {d : Document ι α} {l : List (Document ι α)}
    (h : (l.map Document.id).Nodup) : ((put d l).map Document.id).Nodup := by
  by_cases hd : d.id ∈ l.map Document.id
  · rw [ids_put_of_mem hd]
    exact h
  · rw [put_of_notMem hd, List.map_append]
    refine List.Nodup.append h (List.nodup_singleton _) ?_
    simpa using hd

/-- What a collection holds after one document has been put in. -/
lemma mem_put {d e : Document ι α} {l : List (Document ι α)}
    (h : (l.map Document.id).Nodup) :
    e ∈ put d l ↔ e = d ∨ (e ∈ l ∧ e.id ≠ d.id) := by
  induction l with
  | nil => simp [put]
  | cons f l ih =>
    rw [List.map_cons, List.nodup_cons] at h
    rw [put]
    split_ifs with hf
    · have hl : ∀ g ∈ l, g.id ≠ d.id := fun g hg heq =>
        h.1 (List.mem_map.mpr ⟨g, hg, heq.trans hf.symm⟩)
      rw [List.mem_cons, List.mem_cons]
      constructor
      · rintro (rfl | he)
        · exact .inl rfl
        · exact .inr ⟨.inr he, hl e he⟩
      · rintro (rfl | ⟨rfl | he, hne⟩)
        · exact .inl rfl
        · exact absurd hf hne
        · exact .inr he
    · rw [List.mem_cons, ih h.2, List.mem_cons]
      constructor
      · rintro (rfl | rfl | ⟨he, hne⟩)
        · exact .inr ⟨.inl rfl, hf⟩
        · exact .inl rfl
        · exact .inr ⟨.inr he, hne⟩
      · rintro (rfl | ⟨rfl | he, hne⟩)
        · exact .inr (.inl rfl)
        · exact .inl rfl
        · exact .inr (.inr ⟨he, hne⟩)

/-- Documents with another id are left where they are. -/
lemma filter_put {p : Document ι α → Bool} {d : Document ι α} (hp : ∀ e, e.id = d.id → p e = false)
    (l : List (Document ι α)) : (put d l).filter p = l.filter p := by
  induction l with
  | nil => simp [put, hp d rfl]
  | cons e l ih =>
    rw [put]
    split_ifs with he
    · rw [List.filter_cons_of_neg (by simp [hp d rfl]), List.filter_cons_of_neg (by simp [hp e he])]
    · rw [List.filter_cons, List.filter_cons, ih]

variable [Supply ι]

/-- The id an entity is stored under. -/
def Collection.idFor (c : Collection ι α) (e : Entity ι α) : ι :=
  e.id.getD (Supply.fresh c.ids)

def Collection.save (c : Collection ι α) (e : Entity ι α) : Collection ι α where
  docs := put ⟨c.idFor e, e.body⟩ c.docs
  nodup := nodup_put c.nodup

lemma Collection.mem_save {c : Collection ι α} {e : Entity ι α} {d : Document ι α} :
    d ∈ (c.save e).docs ↔ d = ⟨c.idFor e, e.body⟩ ∨ (d ∈ c.docs ∧ d.id ≠ c.idFor e) :=
  mem_put c.nodup

/-- A document that is saved as it was read leaves the collection as it was. -/
lemma Collection.save_entity {c : Collection ι α} {d : Document ι α} (h : d ∈ c.docs) :
    c.save d.entity = c := by
  have hput : ∀ l : List (Document ι α), d ∈ l → (l.map Document.id).Nodup → put d l = l := by
    intro l hd hl
    induction l with
    | nil => cases hd
    | cons e l ih =>
      obtain ⟨he, hl⟩ := List.nodup_cons.mp hl
      rw [put]
      rcases List.mem_cons.mp hd with rfl | hd
      · rw [if_pos rfl]
      · have hne : e.id ≠ d.id := fun heq => he (heq ▸ List.mem_map_of_mem hd)
        rw [if_neg hne, ih hd hl]
  exact Collection.ext (hput c.docs h c.nodup)

lemma Collection.ids_subset_save {c : Collection ι α} {e : Entity ι α} :
    c.ids ⊆ (c.save e).ids := by
  intro id hid
  obtain ⟨d, hd, rfl⟩ := List.mem_map.mp hid
  by_cases heq : d.id = c.idFor e
  · exact List.mem_map.mpr ⟨_, mem_save.mpr (.inl rfl), heq.symm⟩
  · exact List.mem_map.mpr ⟨d, mem_save.mpr (.inr ⟨hd, heq⟩), rfl⟩

/-- An entity that was never saved becomes the youngest document. -/
lemma Collection.docs_save_new {c : Collection ι α} {e : Entity ι α} (h : e.id = none) :
    (c.save e).docs = c.docs ++ [⟨Supply.fresh c.ids, e.body⟩] := by
  have hid : c.idFor e = Supply.fresh c.ids := by rw [Collection.idFor, h, Option.getD_none]
  have hput := put_of_notMem (d := ⟨Supply.fresh c.ids, e.body⟩) (Supply.fresh_notMem c.ids)
  simp only [Collection.save, hid]
  exact hput

end Save

/-! ### Adding -/

section Add

/-- The documents from before are all there as they were, and there is one more, of which `P`
holds. -/
def Collection.Adds (P : α → Prop) (c c' : Collection ι α) : Prop :=
  (∀ d ∈ c.docs, d ∈ c'.docs) ∧
    ∃ d ∈ c'.docs, d.id ∉ c.ids ∧ P d.body ∧ ∀ e ∈ c'.docs, e = d ∨ e ∈ c.docs

variable [DecidableEq ι] [Supply ι] {c : Collection ι α} {e : Entity ι α}

omit [DecidableEq ι] in
lemma Collection.idFor_notMem_iff : c.idFor e ∉ c.ids ↔ ∀ i ∈ e.id, i ∉ c.ids := by
  unfold Collection.idFor
  cases hid : e.id with
  | none => simp [Supply.fresh_notMem]
  | some i => simp

/-- A save only adds exactly when the entity has no id, or one that no document has. -/
lemma Collection.adds_save_iff {P : α → Prop} :
    c.Adds P (c.save e) ↔ P e.body ∧ ∀ i ∈ e.id, i ∉ c.ids := by
  rw [← idFor_notMem_iff]
  constructor
  · rintro ⟨-, d, hd, hnew, hP, -⟩
    rcases mem_save.mp hd with rfl | ⟨hold, -⟩
    · exact ⟨hP, hnew⟩
    · exact absurd (List.mem_map_of_mem hold) hnew
  · rintro ⟨hP, hnew⟩
    refine ⟨fun d hd => mem_save.mpr (.inr ⟨hd, fun hid => ?_⟩), _, mem_save.mpr (.inl rfl), hnew,
      hP, fun d hd => (mem_save.mp hd).imp_right And.left⟩
    exact hnew (hid ▸ List.mem_map_of_mem hd)

omit [DecidableEq ι] [Supply ι] in
/-- A collection that stays as it is has no more documents. -/
lemma Collection.not_adds_self {P : α → Prop} (c : Collection ι α) : ¬ c.Adds P c := by
  rintro ⟨-, d, hd, hnew, -⟩
  exact hnew (List.mem_map_of_mem hd)

end Add

/-! ### Finding and removing -/

/-- The oldest match. -/
def Collection.findOne (c : Collection ι α) (p : α → Bool) : Option (Document ι α) :=
  c.docs.find? fun d => p d.body

/-- The document with the id. -/
def Collection.findById [DecidableEq ι] (c : Collection ι α) (id : ι) : Option (Document ι α) :=
  c.docs.find? fun d => d.id = id

/-- The matches, the oldest first, as many as the limit allows. -/
def Collection.findLimit (c : Collection ι α) (p : α → Bool) (limit : ℕ) :
    List (Document ι α) :=
  (c.docs.filter fun d => p d.body).take limit

/-- The documents that do not match are kept. -/
def Collection.remove (c : Collection ι α) (p : Document ι α → Bool) : Collection ι α where
  docs := c.docs.filter fun d => !p d
  nodup := c.nodup.sublist (List.filter_sublist.map _)

lemma Collection.findById_eq_some [DecidableEq ι] {c : Collection ι α} {id : ι}
    {d : Document ι α} : c.findById id = some d ↔ d ∈ c.docs ∧ d.id = id := by
  constructor
  · intro h
    exact ⟨List.mem_of_find?_eq_some h, by simpa using List.find?_some h⟩
  · rintro ⟨hd, rfl⟩
    cases hf : c.findById d.id with
    | none => exact absurd (List.find?_eq_none.mp hf d hd) (by simp)
    | some e =>
      have hid : e.id = d.id := by simpa using List.find?_some hf
      rw [List.inj_on_of_nodup_map c.nodup (List.mem_of_find?_eq_some hf) hd hid]

lemma Collection.findById_eq_none [DecidableEq ι] {c : Collection ι α} {id : ι} :
    c.findById id = none ↔ id ∉ c.ids := by
  simp [Collection.findById, Collection.ids]

lemma Collection.findOne_eq_some {c : Collection ι α} {p : α → Bool} {d : Document ι α}
    (h : c.findOne p = some d) : d ∈ c.docs ∧ p d.body = true :=
  ⟨List.mem_of_find?_eq_some h, by simpa using List.find?_some h⟩

lemma Collection.findOne_eq_none {c : Collection ι α} {p : α → Bool} :
    c.findOne p = none ↔ ∀ d ∈ c.docs, p d.body = false := by
  simp [Collection.findOne]

lemma Collection.mem_findLimit {c : Collection ι α} {p : α → Bool} {n : ℕ}
    {d : Document ι α} (h : d ∈ c.findLimit p n) : d ∈ c.docs ∧ p d.body = true := by
  have hd := List.mem_filter.mp (List.mem_of_mem_take h)
  exact ⟨hd.1, by simpa using hd.2⟩

lemma Collection.mem_remove {c : Collection ι α} {p : Document ι α → Bool}
    {d : Document ι α} : d ∈ (c.remove p).docs ↔ d ∈ c.docs ∧ p d = false := by
  simp [Collection.remove]

/-! ### Keys -/

section Key

variable {κ : Type*} (key : α → κ)

/-- At most one document has each key. -/
def Collection.OnePer (c : Collection ι α) : Prop :=
  ∀ d ∈ c.docs, ∀ e ∈ c.docs, key d.body = key e.body → d = e

variable {key}

lemma Collection.onePer_empty : (Collection.empty : Collection ι α).OnePer key := by
  intro d hd
  simp [Collection.empty] at hd

lemma Collection.OnePer.remove {c : Collection ι α} (h : c.OnePer key)
    (p : Document ι α → Bool) : (c.remove p).OnePer key :=
  fun d hd e he => h d (mem_remove.mp hd).1 e (mem_remove.mp he).1

/-- The document of a key, where there is at most one. -/
lemma Collection.OnePer.findOne [DecidableEq κ] {c : Collection ι α} (h : c.OnePer key)
    {k : κ} {d : Document ι α} :
    c.findOne (fun b => key b = k) = some d ↔ d ∈ c.docs ∧ key d.body = k := by
  constructor
  · intro hf
    obtain ⟨hd, hk⟩ := findOne_eq_some hf
    exact ⟨hd, by simpa using hk⟩
  · rintro ⟨hd, rfl⟩
    cases hf : c.findOne (fun b => key b = key d.body) with
    | none => simpa using findOne_eq_none.mp hf d hd
    | some e =>
      obtain ⟨he, hk⟩ := findOne_eq_some hf
      rw [h e he d hd (by simpa using hk)]

/-- The keys of the documents are different where there is at most one for each. -/
lemma Collection.OnePer.nodup {c : Collection ι α} (h : c.OnePer key) :
    (c.docs.map fun d => key d.body).Nodup :=
  List.Nodup.map_on (fun d hd e he heq => h d hd e he heq) (List.Nodup.of_map _ c.nodup)

variable [DecidableEq ι] [Supply ι]

/-- A new document is found only if no older one is. -/
lemma Collection.findOne_save_new {c : Collection ι α} {e : Entity ι α} (h : e.id = none)
    (p : α → Bool) : (c.save e).findOne p =
      (c.findOne p).or (if p e.body then some ⟨Supply.fresh c.ids, e.body⟩ else none) := by
  rw [findOne, docs_save_new h, List.find?_append, List.find?_singleton]
  rfl

/-- Where there is at most one document for each key, there still is one after saving exactly when
no other document has the key. -/
lemma Collection.OnePer.save_iff {c : Collection ι α} (h : c.OnePer key) {e : Entity ι α} :
    (c.save e).OnePer key ↔ ∀ d ∈ c.docs, d.id ≠ c.idFor e → key d.body ≠ key e.body := by
  constructor
  · intro hsave d hd hne hkey
    have heq := hsave d (mem_save.mpr (.inr ⟨hd, hne⟩)) _ (mem_save.mpr (.inl rfl)) hkey
    exact hne (congrArg Document.id heq)
  · intro hother d hd f hf hkey
    rcases mem_save.mp hd with rfl | ⟨hd, hne⟩ <;> rcases mem_save.mp hf with rfl | ⟨hf, hne'⟩
    · rfl
    · exact absurd hkey.symm (hother f hf hne')
    · exact absurd hkey (hother d hd hne)
    · exact h d hd f hf hkey

/-- A new document leaves at most one for each key exactly when its key is new. -/
lemma Collection.onePer_save_new {c : Collection ι α} {e : Entity ι α} (he : e.id = none) :
    (c.save e).OnePer key ↔ c.OnePer key ∧ ∀ d ∈ c.docs, key d.body ≠ key e.body := by
  have hfresh : ∀ d ∈ c.docs, d.id ≠ c.idFor e := by
    intro d hd hid
    have hmem : c.idFor e ∈ c.ids := hid ▸ List.mem_map_of_mem hd
    rw [Collection.idFor, he] at hmem
    exact Supply.fresh_notMem c.ids hmem
  constructor
  · intro h
    have hold : c.OnePer key := fun d hd f hf => h d (mem_save.mpr (.inr ⟨hd, hfresh d hd⟩)) f
      (mem_save.mpr (.inr ⟨hf, hfresh f hf⟩))
    exact ⟨hold, fun d hd => hold.save_iff.mp h d hd (hfresh d hd)⟩
  · rintro ⟨h, hne⟩
    exact h.save_iff.mpr fun d hd _ => hne d hd

/-- A document saved again under the same key leaves at most one for each key. -/
lemma Collection.OnePer.save {c : Collection ι α} (h : c.OnePer key) {d : Document ι α}
    (hd : d ∈ c.docs) {b : α} (hk : key b = key d.body) :
    (c.save ⟨some d.id, b⟩).OnePer key := by
  refine h.save_iff.mpr fun e he hne hkey => hne ?_
  exact congrArg Document.id (h e he d hd (hkey.trans hk))

end Key

/-! ### The documents of a key -/

section Under

variable {κ : Type*} [DecidableEq κ] {key : α → κ} {c : Collection ι α}

/-- The bodies of the documents with a key, the oldest first. -/
def Collection.under (key : α → κ) (c : Collection ι α) (k : κ) : List α :=
  (c.docs.map Document.body).filter fun b => key b = k

lemma Collection.mem_docs_of_mem_under {k : κ} {b : α} (h : b ∈ c.under key k) :
    ∃ d ∈ c.docs, d.body = b :=
  List.mem_map.mp (List.mem_filter.mp h).1

/-- What is found for a key is the oldest of its documents. -/
lemma Collection.findOne_under (k : κ) :
    (c.findOne fun b => key b = k).map Document.body = (c.under key k).head? := by
  rw [Collection.findOne, Collection.under, List.head?_filter, List.find?_map]
  rfl

/-- The documents of a key that are left when those are removed that `p` picks. -/
lemma Collection.under_remove (p : α → Bool) (k : κ) :
    (c.remove fun d => p d.body).under key k = (c.under key k).filter fun b => !p b := by
  simp only [Collection.under, Collection.remove, List.filter_map, List.filter_filter,
    Function.comp_def, Bool.and_comm]

lemma Collection.under_removeKey (k : κ) :
    (c.remove fun d => key d.body = k).under key = Function.update (c.under key) k [] := by
  funext k'
  rw [under_remove fun b => decide (key b = k)]
  by_cases hk : k' = k
  · subst hk
    rw [Function.update_self, List.filter_eq_nil_iff]
    intro b hb
    simpa using (List.mem_filter.mp hb).2
  · rw [Function.update_of_ne hk, List.filter_eq_self]
    intro b hb
    have hkey : key b = k' := by simpa using (List.mem_filter.mp hb).2
    simpa [hkey] using hk

variable [DecidableEq ι] [Supply ι]

/-- A new document is the last one of its key. -/
lemma Collection.under_save_new {e : Entity ι α} (h : e.id = none) (k : κ) :
    (c.save e).under key k = c.under key k ++ if key e.body = k then [e.body] else [] := by
  rw [Collection.under, docs_save_new h, List.map_append, List.filter_append]
  by_cases hk : key e.body = k <;> simp [Collection.under, hk]

/-- An object saved under the id of the document with its key, if there is one. -/
def Collection.upsert (key : α → κ) (c : Collection ι α) (b : α) : Collection ι α :=
  c.save ⟨(c.findOne fun a => key a = key b).map Document.id, b⟩

end Under

/-! ### Saving one after another -/

section Carried

variable {es : List (Entity ι α)}

/-- The ids that the entities have before they are saved. -/
def carried (es : List (Entity ι α)) : List ι := es.filterMap Entity.id

lemma carried_cons_new {e : Entity ι α} (h : e.id = none) : carried (e :: es) = carried es :=
  List.filterMap_cons_none h

lemma carried_cons {e : Entity ι α} {i : ι} (h : e.id = some i) :
    carried (e :: es) = i :: carried es := List.filterMap_cons_some h

/-- The documents that the entities with an id are saved as. -/
def ownDocs (es : List (Entity ι α)) : List (Document ι α) :=
  es.filterMap fun e => e.id.map fun i => ⟨i, e.body⟩

lemma ids_ownDocs (es : List (Entity ι α)) : (ownDocs es).map Document.id = carried es := by
  rw [ownDocs, List.map_filterMap, carried]
  congr 1
  funext e
  cases e.id <;> rfl

lemma bodies_perm (es : List (Entity ι α)) : (es.map Entity.body).Perm
    ((es.filter (·.id.isNone)).map Entity.body ++ (ownDocs es).map Document.body) := by
  induction es with
  | nil => exact .refl _
  | cons e es ih =>
    cases hid : e.id with
    | none => simpa [ownDocs, hid] using ih
    | some i =>
      simp only [ownDocs, List.map_cons, List.filter_cons, hid, Option.isNone_some,
        Bool.false_eq_true, if_false, List.filterMap_cons, Option.map_some]
      exact (ih.cons e.body).trans List.perm_middle.symm

lemma mem_ownDocs {d : Document ι α} :
    d ∈ ownDocs es ↔ ∃ e ∈ es, e.id = some d.id ∧ e.body = d.body := by
  simp only [ownDocs, List.mem_filterMap, Option.map_eq_some_iff]
  constructor
  · rintro ⟨e, he, i, hid, rfl⟩
    exact ⟨e, he, hid, rfl⟩
  · rintro ⟨e, he, hid, hbody⟩
    exact ⟨e, he, d.id, hid, by rw [hbody]⟩

end Carried

section SaveAll

variable [DecidableEq ι] [Supply ι] {c : Collection ι α} {es : List (Entity ι α)} {ids : List ι}

def Collection.saveAll (c : Collection ι α) (es : List (Entity ι α)) : Collection ι α :=
  es.foldl Collection.save c

@[simp] lemma Collection.saveAll_cons (e : Entity ι α) :
    c.saveAll (e :: es) = (c.save e).saveAll es := rfl

/-- No entity that is saved without an id is given one of the ids. -/
def Avoids (ids : List ι) : Collection ι α → List (Entity ι α) → Prop
  | _, [] => True
  | c, e :: es => (e.id = none → c.idFor e ∉ ids) ∧ Avoids ids (c.save e) es

lemma avoids_nil : Avoids [] c es := by
  induction es generalizing c with
  | nil => trivial
  | cons e es ih => exact ⟨fun _ => List.not_mem_nil, ih⟩

lemma avoids_of_isSome (h : ∀ e ∈ es, e.id.isSome) : Avoids ids c es := by
  induction es generalizing c with
  | nil => trivial
  | cons e es ih =>
    rw [List.forall_mem_cons] at h
    refine ⟨fun hnone => ?_, ih h.2⟩
    rw [hnone] at h
    cases h.1

/-- Under other ids than those that are carried, the documents are the old ones, and then the
new ones in their order. -/
lemma Collection.bodies_saveAll_other (havoid : Avoids ids c es) (hsub : carried es ⊆ ids) :
    ((c.saveAll es).docs.filter (·.id ∉ ids)).map Document.body =
      (c.docs.filter (·.id ∉ ids)).map Document.body ++
        (es.filter (·.id.isNone)).map Entity.body := by
  induction es generalizing c with
  | nil => simp [saveAll]
  | cons e es ih =>
    obtain ⟨hnew, hrest⟩ := havoid
    cases hid : e.id with
    | none =>
      rw [carried_cons_new hid] at hsub
      have hfresh := hnew hid
      rw [idFor, hid, Option.getD_none] at hfresh
      rw [saveAll_cons, ih hrest hsub, docs_save_new hid]
      simp [hid, hfresh]
    | some i =>
      rw [carried_cons hid, List.cons_subset] at hsub
      have hput : (c.save e).docs.filter (·.id ∉ ids) = c.docs.filter (·.id ∉ ids) := by
        refine filter_put (fun d hd => ?_) c.docs
        have hin : d.id ∈ ids := by simpa [hd, idFor, hid] using hsub.1
        simp [hin]
      rw [saveAll_cons, ih hrest hsub.2, hput]
      simp [hid]

/-- Objects that were never saved become the youngest documents, in their order. -/
lemma Collection.bodies_saveAll_new (hnew : ∀ e ∈ es, e.id = none) :
    (c.saveAll es).docs.map Document.body = c.docs.map Document.body ++ es.map Entity.body := by
  have hcarried : carried es = [] := List.filterMap_eq_nil_iff.mpr hnew
  have hother := bodies_saveAll_other (c := c) avoids_nil (List.subset_nil.mpr hcarried)
  have hall : es.filter (·.id.isNone) = es :=
    List.filter_eq_self.mpr fun e he => by rw [hnew e he]; rfl
  simpa [hall] using hother

/-- Under different ids every entity is found under its own. -/
lemma Collection.mem_saveAll (havoid : Avoids ids c es) (hnodup : (carried es).Nodup)
    {d : Document ι α} (hd : d.id ∈ ids) :
    d ∈ (c.saveAll es).docs ↔
      (∃ e ∈ es, e.id = some d.id ∧ e.body = d.body) ∨ (d ∈ c.docs ∧ d.id ∉ carried es) := by
  induction es generalizing c with
  | nil => simp [saveAll, carried]
  | cons e es ih =>
    obtain ⟨hnew, hrest⟩ := havoid
    cases hid : e.id with
    | none =>
      rw [carried_cons_new hid] at hnodup ⊢
      have hne : d.id ≠ c.idFor e := fun h => hnew hid (h ▸ hd)
      rw [saveAll_cons, ih hrest hnodup, mem_save]
      have hnot : d ≠ ⟨c.idFor e, e.body⟩ := fun h => hne (congrArg Document.id h)
      simp [hid, hne, hnot]
    | some i =>
      rw [carried_cons hid] at hnodup ⊢
      obtain ⟨hi, hnodup⟩ := List.nodup_cons.mp hnodup
      have hidFor : c.idFor e = i := by rw [idFor, hid, Option.getD_some]
      rw [saveAll_cons, ih hrest hnodup, mem_save, hidFor]
      simp only [List.mem_cons, exists_eq_or_imp, hid, Option.some_inj, not_or]
      constructor
      · rintro (h | ⟨rfl | ⟨hold, hne⟩, hout⟩)
        · exact .inl (.inr h)
        · exact .inl (.inl ⟨rfl, rfl⟩)
        · exact .inr ⟨hold, hne, hout⟩
      · rintro ((⟨rfl, hbody⟩ | h) | ⟨hold, hne, hout⟩)
        · exact .inr ⟨.inl (by rw [hbody]), hi⟩
        · exact .inl h
        · exact .inr ⟨.inr ⟨hold, hne⟩, hout⟩

/-- **Saving one after another.** The documents that were there under other ids, and all that
were saved, are what is there in the end exactly when no id is carried twice. -/
theorem Collection.bodies_saveAll_iff (havoid : Avoids (carried es) c es) :
    ((c.saveAll es).docs.map Document.body).Perm
        ((c.docs.filter (·.id ∉ carried es)).map Document.body ++ es.map Entity.body) ↔
      (carried es).Nodup := by
  have hother := bodies_saveAll_other havoid (List.Subset.refl _)
  have hsplit := List.filter_append_perm (fun d : Document ι α => decide (d.id ∉ carried es))
    (c.saveAll es).docs
  set own := (c.saveAll es).docs.filter fun d => !decide (d.id ∉ carried es) with hown
  have hids : (own.map Document.id).Nodup :=
    (c.saveAll es).nodup.sublist (List.filter_sublist.map _)
  have hdocs : ((c.saveAll es).docs.map Document.body).Perm
      ((c.docs.filter (·.id ∉ carried es)).map Document.body ++
        ((es.filter (·.id.isNone)).map Entity.body ++ own.map Document.body)) := by
    rw [← List.append_assoc, ← hother, ← List.map_append]
    exact (hsplit.map _).symm
  constructor
  · intro h
    have hlength := ((hdocs.symm.trans h).trans ((bodies_perm es).append_left _)).length_eq
    simp only [List.length_append, List.length_map, Nat.add_left_cancel_iff] at hlength
    have hsub : own.map Document.id ⊆ carried es := by
      intro i hi
      obtain ⟨d, hd, rfl⟩ := List.mem_map.mp hi
      simpa [hown] using (List.mem_filter.mp hd).2
    have hperm : (own.map Document.id).Perm (carried es) := by
      refine (hids.subperm hsub).perm_of_length_le ?_
      rw [← ids_ownDocs, List.length_map, List.length_map, hlength]
    exact hperm.nodup_iff.mp hids
  · intro hnodup
    have hperm : own.Perm (ownDocs es) := by
      refine (List.perm_ext_iff_of_nodup (List.Nodup.of_map _ hids) ?_).mpr fun d => ?_
      · exact List.Nodup.of_map Document.id (ids_ownDocs es ▸ hnodup)
      · have hmem : d ∈ own ↔ d ∈ (c.saveAll es).docs ∧ d.id ∈ carried es := by
          simp [hown]
        rw [hmem, mem_ownDocs]
        constructor
        · rintro ⟨hd, hin⟩
          exact ((mem_saveAll havoid hnodup hin).mp hd).resolve_right fun h => h.2 hin
        · rintro ⟨e, he, hid, hbody⟩
          have hin : d.id ∈ carried es := List.mem_filterMap.mpr ⟨e, he, hid⟩
          exact ⟨(mem_saveAll havoid hnodup hin).mpr (.inl ⟨e, he, hid, hbody⟩), hin⟩
    have hbodies := (bodies_perm es).trans ((hperm.map Document.body).symm.append_left _)
    exact hdocs.trans (hbodies.symm.append_left _)

end SaveAll

end Logful.Documents
