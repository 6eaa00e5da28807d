import Logful.Documents
import Mathlib.Data.List.Dedup
import Mathlib.Data.List.Induction

/-!
Many upserts one after another.

An upsert by a key writes over the element with the key, in its place, or appends one. Of many
upserts the list has the keys in the order in which they came for the first time, and for each
of them the last element that came with it.
-/

namespace Logful.Upserts

open Logful.Documents

variable {ι α β κ κ' : Type*} [DecidableEq κ] [DecidableEq κ'] {key : α → κ}

/-- The element in the place of the one with its key, or at the end. -/
def upsert (key : α → κ) (b : α) : List α → List α
  | [] => [b]
  | a :: l => if key a = key b then b :: l else a :: upsert key b l

def upserts (key : α → κ) (bs : List α) : List α := bs.foldl (fun l b => upsert key b l) []

/-- The elements in the order in which they come for the first time. -/
def firsts (ks : List κ) : List κ := ks.reverse.dedup.reverse

/-- The last element that comes with a key. -/
def last (key : α → κ) (bs : List α) (k : κ) : Option α := bs.reverse.find? fun b => key b = k

/-! ### The order of the keys -/

lemma nodup_firsts (ks : List κ) : (firsts ks).Nodup := List.nodup_reverse.mpr (List.nodup_dedup _)

lemma mem_firsts {ks : List κ} {k : κ} : k ∈ firsts ks ↔ k ∈ ks := by
  simp [firsts]

lemma firsts_concat (ks : List κ) (k : κ) :
    firsts (ks ++ [k]) = if k ∈ firsts ks then firsts ks else firsts ks ++ [k] := by
  unfold firsts
  rw [List.reverse_append, List.reverse_singleton, List.singleton_append]
  by_cases hk : k ∈ ks.reverse
  · rw [List.dedup_cons_of_mem hk, if_pos (by simpa using hk)]
  · rw [List.dedup_cons_of_notMem hk, if_neg (by simpa using hk), List.reverse_cons]

/-! ### The last element of a key -/

lemma last_concat (bs : List α) (b : α) :
    last key (bs ++ [b]) = Function.update (last key bs) (key b) (some b) := by
  funext k
  unfold last
  rw [List.reverse_append, List.reverse_singleton, List.singleton_append]
  by_cases hk : key b = k
  · subst hk
    rw [List.find?_cons_of_pos (by simp), Function.update_self]
  · rw [List.find?_cons_of_neg (by simpa using hk), Function.update_of_ne (Ne.symm hk)]

lemma last_eq_some {bs : List α} {k : κ} {b : α} (h : last key bs k = some b) :
    b ∈ bs ∧ key b = k :=
  ⟨List.mem_reverse.mp (List.mem_of_find?_eq_some h), by simpa using List.find?_some h⟩

lemma last_isSome {bs : List α} {k : κ} : (last key bs k).isSome ↔ k ∈ bs.map key := by
  simp [last, List.mem_map]

/-! ### Many upserts -/

/-- One upsert into a list that has one element for each of its keys. -/
lemma upsert_filterMap {f : κ → Option α} (b : α) {ks : List κ} (hks : ks.Nodup)
    (hf : ∀ k ∈ ks, ∃ a, f k = some a ∧ key a = k) :
    upsert key b (ks.filterMap f) =
      (if key b ∈ ks then ks else ks ++ [key b]).filterMap
        (Function.update f (key b) (some b)) := by
  induction ks with
  | nil => simp [upsert]
  | cons k ks ih =>
    obtain ⟨hk, hrest⟩ := List.nodup_cons.mp hks
    obtain ⟨a, ha, rfl⟩ := hf k List.mem_cons_self
    have hupsert := ih hrest fun k hk => hf k (List.mem_cons_of_mem _ hk)
    rw [List.filterMap_cons_some ha, upsert]
    by_cases hb : key a = key b
    · have hsame : ks.filterMap (Function.update f (key b) (some b)) = ks.filterMap f := by
        refine List.filterMap_congr fun k' hk' => Function.update_of_ne ?_ _ _
        rintro rfl
        exact hk (hb ▸ hk')
      rw [if_pos hb, if_pos (by simp [hb]), List.filterMap_cons_some
        (b := b) (by rw [hb, Function.update_self]), hsame]
    · have hupdate : Function.update f (key b) (some b) (key a) = some a := by
        rw [Function.update_of_ne hb, ha]
      rw [if_neg hb, hupsert]
      by_cases hmem : key b ∈ ks
      · rw [if_pos hmem, if_pos (List.mem_cons_of_mem _ hmem), List.filterMap_cons_some hupdate]
      · have hnot : key b ∉ key a :: ks := by simp [Ne.symm hb, hmem]
        rw [if_neg hmem, if_neg hnot, List.cons_append, List.filterMap_cons_some hupdate]

lemma upserts_concat (bs : List α) (b : α) :
    upserts key (bs ++ [b]) = upsert key b (upserts key bs) := by
  rw [upserts, List.foldl_append]
  rfl

/-- **The keys in their first order, and the last element of each.** -/
theorem upserts_eq (key : α → κ) (bs : List α) :
    upserts key bs = (firsts (bs.map key)).filterMap (last key bs) := by
  induction bs using List.reverseRecOn with
  | nil => rfl
  | append_singleton bs b ih =>
    have hfound : ∀ k ∈ firsts (bs.map key), ∃ a, last key bs k = some a ∧ key a = k := by
      intro k hk
      obtain ⟨a, ha⟩ := Option.isSome_iff_exists.mp (last_isSome.mpr (mem_firsts.mp hk))
      exact ⟨a, ha, (last_eq_some ha).2⟩
    rw [upserts_concat, ih, upsert_filterMap b (nodup_firsts _) hfound, List.map_append,
      List.map_singleton, firsts_concat, last_concat]

lemma keys_upserts (bs : List α) : (upserts key bs).map key = firsts (bs.map key) := by
  rw [upserts_eq, List.map_filterMap]
  refine (List.filterMap_congr fun k hk => ?_).trans List.filterMap_some
  obtain ⟨a, ha⟩ := Option.isSome_iff_exists.mp (last_isSome.mpr (mem_firsts.mp hk))
  rw [ha, Option.map_some, (last_eq_some ha).2]

/-- An upsert among the elements of which `p` holds, where the key decides on `p`. -/
lemma filter_upsert {p : α → Bool} (hp : ∀ a b, key a = key b → p a = p b) (b : α) (l : List α) :
    (upsert key b l).filter p = if p b then upsert key b (l.filter p) else l.filter p := by
  induction l with
  | nil => cases hb : p b <;> simp [upsert, hb]
  | cons a l ih =>
    rw [upsert]
    by_cases hab : key a = key b
    · have hpa := hp a b hab
      rw [if_pos hab, List.filter_cons, List.filter_cons, hpa]
      cases p b <;> simp [upsert, hab]
    · rw [if_neg hab, List.filter_cons, List.filter_cons, ih]
      cases ha : p a <;> cases hb : p b <;> simp [upsert, hab]

lemma filter_upserts {p : α → Bool} (hp : ∀ a b, key a = key b → p a = p b) (bs : List α) :
    (upserts key bs).filter p = upserts key (bs.filter p) := by
  induction bs using List.reverseRecOn with
  | nil => rfl
  | append_singleton bs b ih =>
    rw [upserts_concat, filter_upsert hp, ih, List.filter_append, List.filter_singleton]
    cases p b
    · simp
    · exact (upserts_concat _ b).symm

/-- Two keys that tell the same elements apart. -/
lemma upserts_congr {key' : α → κ'} {bs : List α}
    (h : ∀ a ∈ bs, ∀ b ∈ bs, key a = key b ↔ key' a = key' b) :
    upserts key bs = upserts key' bs := by
  have hone : ∀ (b : α) (l : List α), (∀ a ∈ l, key a = key b ↔ key' a = key' b) →
      upsert key b l = upsert key' b l := by
    intro b l hl
    induction l with
    | nil => rfl
    | cons a l ih =>
      rw [upsert, upsert, ih fun c hc => hl c (List.mem_cons_of_mem _ hc)]
      by_cases hab : key a = key b
      · rw [if_pos hab, if_pos ((hl a List.mem_cons_self).mp hab)]
      · rw [if_neg hab, if_neg fun h => hab ((hl a List.mem_cons_self).mpr h)]
  induction bs using List.reverseRecOn with
  | nil => rfl
  | append_singleton bs b ih =>
    have hbs := ih fun a ha c hc => h a (List.mem_append_left _ ha) c (List.mem_append_left _ hc)
    rw [upserts_concat, upserts_concat, ← hbs]
    refine hone b _ fun a ha => h a (List.mem_append_left _ ?_) b
      (List.mem_append_right _ (List.mem_singleton_self b))
    rw [upserts_eq, List.mem_filterMap] at ha
    obtain ⟨k, -, hk⟩ := ha
    exact (last_eq_some hk).1

/-! ### Upserts into a collection -/

variable [DecidableEq ι]

/-- A document with the key keeps its place. -/
lemma bodies_put {b : α} {i : ι} {docs : List (Document ι α)}
    (h : ∀ d ∈ docs, d.id = i ↔ key d.body = key b) :
    (put ⟨i, b⟩ docs).map Document.body = upsert key b (docs.map Document.body) := by
  induction docs with
  | nil => rfl
  | cons d docs ih =>
    rw [put, List.map_cons, upsert]
    by_cases hd : d.id = i
    · rw [if_pos hd, if_pos ((h d List.mem_cons_self).mp hd)]
      rfl
    · rw [if_neg hd, if_neg fun hk => hd ((h d List.mem_cons_self).mpr hk), List.map_cons,
        ih fun e he => h e (List.mem_cons_of_mem _ he)]

variable [Supply ι] {c : Collection ι α}

omit [DecidableEq ι] in
/-- An object is saved under the id of a document exactly when this has its key. -/
lemma id_upsert_iff (hc : c.OnePer key) {d : Document ι α} (hd : d ∈ c.docs) (b : α) :
    d.id = c.idFor ⟨(c.findOne fun a => key a = key b).map Document.id, b⟩ ↔
      key d.body = key b := by
  rw [Collection.idFor]
  cases hf : c.findOne fun a => key a = key b with
  | none =>
    have hne := Collection.findOne_eq_none.mp hf d hd
    refine iff_of_false (fun hid => ?_) (by simpa using hne)
    exact Supply.fresh_notMem c.ids (List.mem_map.mpr ⟨d, hd, hid⟩)
  | some e =>
    obtain ⟨he, hk⟩ := hc.findOne.mp hf
    constructor
    · intro hid
      rw [List.inj_on_of_nodup_map c.nodup hd he hid, hk]
    · intro hkey
      rw [hc d hd e he (hkey.trans hk.symm)]
      rfl

/-- What a collection holds after an upsert, where it has one document at most for each key. -/
lemma bodies_upsert (hc : c.OnePer key) (b : α) :
    (c.upsert key b).docs.map Document.body = upsert key b (c.docs.map Document.body) :=
  bodies_put fun _ hd => id_upsert_iff hc hd b

lemma onePer_upsert (hc : c.OnePer key) (b : α) : (c.upsert key b).OnePer key :=
  hc.save_iff.mpr fun _ hd hne hkey => hne ((id_upsert_iff hc hd b).mpr hkey)

/-- What a collection holds after many upserts. -/
theorem bodies_upserts (key : α → κ) (bs : List α) :
    let c : Collection ι α := bs.foldl (fun c b => c.upsert key b) .empty
    c.OnePer key ∧ c.docs.map Document.body = upserts key bs := by
  induction bs using List.reverseRecOn with
  | nil => exact ⟨Collection.onePer_empty, rfl⟩
  | append_singleton bs b ih =>
    obtain ⟨hone, hbodies⟩ := ih
    simp only [List.foldl_append, List.foldl_cons, List.foldl_nil]
    exact ⟨onePer_upsert hone b, by rw [bodies_upsert hone, hbodies, upserts_concat]⟩

end Logful.Upserts
