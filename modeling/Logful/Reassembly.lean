import Mathlib.Data.List.Basic
import Mathlib.Tactic.Common

/-!
Messages that are sent in numbered parts, and the receiver that puts them together.

The parts of all messages come in any order, some of them more than once and some not at all.
A receiver that goes by the numbers has a message as soon as its parts are complete, and has
nothing else, as long as no two messages have the same id.
-/

namespace Logful.Reassembly

variable {α ι : Type}

/-! ### Pieces -/

/-- The pieces of `n` elements each, the last one of what is left. -/
def cut (n : ℕ) (hn : 0 < n) (l : List α) : List (List α) :=
  if _h : l = [] then [] else l.take n :: cut n hn (l.drop n)
termination_by l.length
decreasing_by
  have := List.length_pos_iff.mpr _h
  simp only [List.length_drop]
  omega

variable {n : ℕ} {hn : 0 < n}

@[simp] lemma cut_nil : cut n hn ([] : List α) = [] := by
  rw [cut]
  exact dif_pos rfl

lemma cut_of_ne_nil {l : List α} (h : l ≠ []) :
    cut n hn l = l.take n :: cut n hn (l.drop n) := by
  rw [cut]
  exact dif_neg h

/-- The pieces are the whole. -/
lemma flatten_cut (l : List α) : (cut n hn l).flatten = l := by
  fun_induction cut n hn l with
  | case1 => rfl
  | case2 l h ih => rw [List.flatten_cons, ih, List.take_append_drop]

lemma length_of_mem_cut {l piece : List α} (h : piece ∈ cut n hn l) :
    0 < piece.length ∧ piece.length ≤ n := by
  fun_induction cut n hn l with
  | case1 => simp at h
  | case2 l hl ih =>
    rcases List.mem_cons.mp h with rfl | h
    · have := List.length_pos_iff.mpr hl
      simp only [List.length_take]
      omega
    · exact ih h

/-- There are as many pieces as full ones fit, and one more for what is left. -/
lemma length_cut (l : List α) :
    (cut n hn l).length = l.length / n + if l.length % n = 0 then 0 else 1 := by
  fun_induction cut n hn l with
  | case1 => simp
  | case2 l hl ih =>
    have hpos := List.length_pos_iff.mpr hl
    rw [List.length_cons]
    rcases Nat.lt_or_ge l.length n with hlt | hge
    · rw [List.drop_eq_nil_of_le (Nat.le_of_lt hlt), cut_nil, Nat.div_eq_of_lt hlt,
        Nat.mod_eq_of_lt hlt, if_neg (by omega)]
      rfl
    · have hdiv : l.length / n = (l.length - n) / n + 1 := by
        rw [← Nat.add_div_right _ hn, Nat.sub_add_cancel hge]
      rw [ih, List.length_drop, hdiv, Nat.mod_eq_sub_mod hge]
      exact Nat.add_right_comm _ _ _

/-! ### Parts -/

/-- A part of the message with the id, its number, and how many there are. -/
structure Part (ι α : Type) where
  id : ι
  number : ℕ
  count : ℕ
  data : List α
  deriving DecidableEq

/-- The parts of a message that is sent in pieces, numbered from `k` on. -/
def partsFrom (id : ι) (count k : ℕ) : List (List α) → List (Part ι α)
  | [] => []
  | piece :: pieces => ⟨id, k, count, piece⟩ :: partsFrom id count (k + 1) pieces

def parts (id : ι) (pieces : List (List α)) : List (Part ι α) :=
  partsFrom id pieces.length 0 pieces

lemma length_partsFrom (id : ι) (count k : ℕ) (pieces : List (List α)) :
    (partsFrom id count k pieces).length = pieces.length := by
  induction pieces generalizing k with
  | nil => rfl
  | cons piece pieces ih => rw [partsFrom, List.length_cons, ih, List.length_cons]

lemma mem_partsFrom {id : ι} {count k : ℕ} {pieces : List (List α)} {p : Part ι α} :
    p ∈ partsFrom id count k pieces ↔
      ∃ i piece, pieces[i]? = some piece ∧ p = ⟨id, k + i, count, piece⟩ := by
  induction pieces generalizing k with
  | nil => simp [partsFrom]
  | cons piece pieces ih =>
    rw [partsFrom, List.mem_cons, ih]
    constructor
    · rintro (rfl | ⟨i, piece', hi, rfl⟩)
      · exact ⟨0, piece, rfl, rfl⟩
      · exact ⟨i + 1, piece', hi, by rw [Nat.add_assoc, Nat.add_comm 1 i]⟩
    · rintro ⟨i, piece', hi, rfl⟩
      rcases i with _ | i
      · cases hi
        exact .inl rfl
      · exact .inr ⟨i, piece', hi, by rw [Nat.add_assoc, Nat.add_comm 1 i]⟩

lemma mem_parts {id : ι} {pieces : List (List α)} {p : Part ι α} :
    p ∈ parts id pieces ↔
      ∃ i piece, pieces[i]? = some piece ∧ p = ⟨id, i, pieces.length, piece⟩ := by
  simp [parts, mem_partsFrom]

/-! ### The receiver -/

variable [DecidableEq ι]

/-- The data of a part, if it has come. -/
def find (ps : List (Part ι α)) (id : ι) (number : ℕ) : Option (List α) :=
  (ps.find? fun p => p.id = id ∧ p.number = number).map Part.data

/-- The message with the id, if its parts are complete. The first of them says how many there
are. -/
def assemble (ps : List (Part ι α)) (id : ι) : Option (List α) :=
  match ps.find? fun p => p.id = id with
  | none => none
  | some p => ((List.range p.count).mapM fun i => find ps id i).map List.flatten

/-- `sent id pieces`: these are the pieces that were sent under the id, and no others. -/
structure Distinct (sent : ι → List (List α) → Prop) : Prop where
  eq : ∀ {id pieces pieces'}, sent id pieces → sent id pieces' → pieces = pieces'

variable {sent : ι → List (List α) → Prop} {ps : List (Part ι α)}
  {pieces : List (List α)} {id : ι}

lemma mapM_range_eq_some {β : Type} {f : ℕ → Option β} {k : ℕ} {l : List β} :
    (List.range k).mapM f = some l ↔ l.length = k ∧ ∀ i < k, f i = l[i]? := by
  induction k generalizing l with
  | zero => simp [eq_comm]
  | succ k ih =>
    rw [List.range_succ, List.mapM_append]
    simp only [List.mapM_cons, List.mapM_nil, Option.pure_def, Option.bind_eq_bind,
      Option.bind_eq_some_iff, Option.some.injEq]
    constructor
    · rintro ⟨l₁, h₁, -, ⟨b, hb, _, rfl, rfl⟩, rfl⟩
      obtain ⟨hlen, hget⟩ := ih.mp h₁
      refine ⟨by simp [hlen], fun i hi => ?_⟩
      rcases Nat.lt_succ_iff_lt_or_eq.mp hi with hi | rfl
      · rw [hget i hi, List.getElem?_append_left (by omega)]
      · rw [hb, List.getElem?_append_right (by omega), hlen]
        simp
    · rintro ⟨hlen, hget⟩
      have hne : l ≠ [] := List.ne_nil_of_length_pos (by omega)
      have hlast : l[k]? = some (l.getLast hne) := by
        rw [← List.getLast?_eq_some_getLast hne, List.getLast?_eq_getElem?, hlen,
          Nat.add_sub_cancel]
      refine ⟨l.dropLast, ih.mpr ⟨by simp [hlen], fun i hi => ?_⟩, [l.getLast hne],
        ⟨l.getLast hne, by rw [hget k (by omega), hlast], [], rfl, rfl⟩,
        List.dropLast_append_getLast hne⟩
      rw [hget i (by omega), List.getElem?_dropLast, if_pos (by omega)]

/-- What is found is a piece that was sent. -/
lemma find_eq_some (hd : Distinct sent) (hsent : sent id pieces)
    (hps : ∀ p ∈ ps, ∃ pieces, sent p.id pieces ∧ p ∈ parts p.id pieces) {i : ℕ} {piece : List α} :
    find ps id i = some piece ↔
      pieces[i]? = some piece ∧ ⟨id, i, pieces.length, piece⟩ ∈ ps := by
  have hpart : ∀ p ∈ ps, p.id = id → ∃ piece, pieces[p.number]? = some piece ∧
      p = ⟨id, p.number, pieces.length, piece⟩ := by
    intro p hp hid
    obtain ⟨pieces', hs, hmem⟩ := hps p hp
    obtain ⟨j, piece, hj, hpj⟩ := mem_parts.mp hmem
    rw [hid] at hs
    obtain rfl := hd.eq hs hsent
    rw [hpj]
    exact ⟨piece, hj, by rw [hid]⟩
  constructor
  · intro h
    obtain ⟨p, hp, rfl⟩ := Option.map_eq_some_iff.mp h
    have hmem := List.mem_of_find?_eq_some hp
    have hkey := List.find?_some hp
    simp only [decide_eq_true_eq] at hkey
    obtain ⟨piece, hpiece, heq⟩ := hpart p hmem hkey.1
    rw [hkey.2] at hpiece heq
    rw [heq] at hmem ⊢
    exact ⟨hpiece, hmem⟩
  · rintro ⟨hpiece, hmem⟩
    have hsome : (ps.find? fun p => p.id = id ∧ p.number = i).isSome :=
      List.find?_isSome.mpr ⟨_, hmem, by simp⟩
    obtain ⟨p, hp⟩ := Option.isSome_iff_exists.mp hsome
    have hkey := List.find?_some hp
    simp only [decide_eq_true_eq] at hkey
    obtain ⟨piece', hpiece', heq⟩ := hpart p (List.mem_of_find?_eq_some hp) hkey.1
    rw [hkey.2, hpiece, Option.some_inj] at hpiece'
    rw [find, hp, heq, hpiece']
    rfl

/-- **The receiver has a message exactly when its parts are complete.** -/
theorem assemble_eq_some_iff (hd : Distinct sent)
    (hps : ∀ p ∈ ps, ∃ pieces, sent p.id pieces ∧ p ∈ parts p.id pieces) {m : List α} :
    assemble ps id = some m ↔
      ∃ pieces, sent id pieces ∧ pieces ≠ [] ∧ (∀ p ∈ parts id pieces, p ∈ ps) ∧
        m = pieces.flatten := by
  constructor
  · intro h
    unfold assemble at h
    cases hfirst : ps.find? fun p => p.id = id with
    | none => simp [hfirst] at h
    | some p =>
      simp only [hfirst] at h
      obtain ⟨l, hl, rfl⟩ := Option.map_eq_some_iff.mp h
      have hid : p.id = id := by simpa using List.find?_some hfirst
      obtain ⟨pieces, hs, hmem⟩ := hps p (List.mem_of_find?_eq_some hfirst)
      obtain ⟨j, piece, hj, hpj⟩ := mem_parts.mp hmem
      rw [hid] at hs
      have hcount : p.count = pieces.length := by rw [hpj]
      rw [hcount] at hl
      obtain ⟨hlen, hget⟩ := mapM_range_eq_some.mp hl
      have hfound : ∀ i < pieces.length, find ps id i = pieces[i]? := by
        intro i hi
        have hli : l[i]? = some l[i] := List.getElem?_eq_getElem (by omega)
        rw [hget i hi, hli, ((find_eq_some hd hs hps).mp ((hget i hi).trans hli)).1]
      refine ⟨pieces, hs, ?_, ?_, ?_⟩
      · rintro rfl
        simp at hj
      · intro q hq
        obtain ⟨i, piece', hi, rfl⟩ := mem_parts.mp hq
        have hlt : i < pieces.length := (List.getElem?_eq_some_iff.mp hi).1
        exact ((find_eq_some hd hs hps).mp ((hfound i hlt).trans hi)).2
      · congr 1
        apply List.ext_getElem?
        intro i
        rcases Nat.lt_or_ge i pieces.length with hi | hi
        · rw [← hget i hi, hfound i hi]
        · rw [List.getElem?_eq_none (by omega), List.getElem?_eq_none (by omega)]
  · rintro ⟨pieces, hs, hne, hall, rfl⟩
    have hfound : ∀ i < pieces.length, find ps id i = pieces[i]? := by
      intro i hi
      have hpiece : pieces[i]? = some pieces[i] := List.getElem?_eq_getElem hi
      rw [hpiece]
      exact (find_eq_some hd hs hps).mpr ⟨hpiece, hall _ (mem_parts.mpr ⟨i, _, hpiece, rfl⟩)⟩
    obtain ⟨piece, rest, hcons⟩ := List.exists_cons_of_ne_nil hne
    have hfirst : ⟨id, 0, pieces.length, piece⟩ ∈ ps :=
      hall _ (mem_parts.mpr ⟨0, piece, by rw [hcons]; rfl, rfl⟩)
    have hsome : (ps.find? fun p => p.id = id).isSome :=
      List.find?_isSome.mpr ⟨_, hfirst, by simp⟩
    obtain ⟨p, hp⟩ := Option.isSome_iff_exists.mp hsome
    have hid : p.id = id := by simpa using List.find?_some hp
    obtain ⟨pieces', hs', hmem⟩ := hps p (List.mem_of_find?_eq_some hp)
    obtain ⟨j, piece', hj, hpj⟩ := mem_parts.mp hmem
    rw [hid] at hs'
    obtain rfl := hd.eq hs hs'
    have hcount : p.count = pieces.length := by rw [hpj]
    rw [assemble, hp]
    simp only [hcount]
    rw [mapM_range_eq_some.mpr ⟨rfl, hfound⟩]
    rfl

end Logful.Reassembly
