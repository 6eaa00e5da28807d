import Mathlib.Data.List.Induction
import Mathlib.Data.List.Infix
import Mathlib.Tactic.Common

/-!
Records that are filled in by a list of settings, one after the other.

A setting is for some of the fields. A field that every setting for it overwrites has the value of
the last of these in the end, whatever else was set in between. And what some settings make true
and others end is true in the end if it was made true and has not been ended since.
-/

namespace Logful.Settings

section LastOf

variable {σ α : Type*} {f : σ → Option α}

/-- The value of the last of the settings that there is one for. -/
def lastOf (f : σ → Option α) (default : α) (settings : List σ) : α :=
  settings.foldl (fun a x => (f x).getD a) default

@[simp] lemma lastOf_nil (a : α) : lastOf f a [] = a := rfl

@[simp] lemma lastOf_cons (a : α) (x : σ) (l : List σ) :
    lastOf f a (x :: l) = lastOf f ((f x).getD a) l := rfl

lemma lastOf_append (a : α) (l m : List σ) : lastOf f a (l ++ m) = lastOf f (lastOf f a l) m :=
  List.foldl_append

/-- A field that each setting overwrites or leaves alone. -/
lemma foldl_eq_lastOf {ρ : Type*} {set : ρ → σ → ρ} {field : ρ → α}
    (hset : ∀ r x, field (set r x) = (f x).getD (field r)) (r : ρ) (settings : List σ) :
    field (settings.foldl set r) = lastOf f (field r) settings := by
  induction settings generalizing r with
  | nil => rfl
  | cons x settings ih => rw [List.foldl_cons, ih, hset, lastOf_cons]

/-- Without a setting for the field its initial value stays, else the last of these is what
counts. -/
lemma lastOf_eq_getLast? (a : α) (settings : List σ) :
    lastOf f a settings = (settings.filterMap f).getLast?.getD a := by
  induction settings generalizing a with
  | nil => rfl
  | cons x settings ih =>
    rw [lastOf_cons, ih, List.filterMap_cons]
    cases f x with
    | none => rfl
    | some v =>
      rw [List.getLast?_cons, Option.getD_some, Option.getD_some]

end LastOf

section Since

variable {σ ρ : Type*} {set : ρ → σ → ρ} {P : ρ → Prop} {makes : ρ → σ → Prop} {ends : σ → Prop}

/-- **Made and not ended since.** -/
theorem holds_iff_since {r : ρ} (hr : ¬ P r) {settings : List σ}
    (hset : ∀ p x, p ++ [x] <+: settings → (P (set (p.foldl set r) x) ↔
      makes (p.foldl set r) x ∨ (P (p.foldl set r) ∧ ¬ ends x))) :
    P (settings.foldl set r) ↔ ∃ p x q, settings = p ++ x :: q ∧ makes (p.foldl set r) x ∧
      ∀ y ∈ q, ¬ ends y := by
  induction settings using List.reverseRecOn with
  | nil =>
    refine iff_of_false hr ?_
    rintro ⟨p, x, q, h, -⟩
    simp at h
  | append_singleton l x ih =>
    have hl := ih fun p y hp => hset p y (hp.trans (List.prefix_append l [x]))
    rw [List.foldl_append, List.foldl_cons, List.foldl_nil, hset l x (List.prefix_refl _), hl]
    constructor
    · rintro (hmakes | ⟨⟨p, y, q, rfl, hmakes, hq⟩, hx⟩)
      · exact ⟨l, x, [], rfl, hmakes, fun y hy => absurd hy List.not_mem_nil⟩
      · refine ⟨p, y, q ++ [x], by simp, hmakes, fun z hz => ?_⟩
        rcases List.mem_append.mp hz with hz | hz
        · exact hq z hz
        · rwa [List.mem_singleton.mp hz]
    · rintro ⟨p, y, q, heq, hmakes, hq⟩
      rcases List.eq_nil_or_concat q with rfl | ⟨q, z, rfl⟩
      · obtain ⟨rfl, hy⟩ := List.append_inj' heq rfl
        obtain rfl := List.singleton_inj.mp hy
        exact .inl hmakes
      · rw [List.concat_eq_append, ← List.cons_append, ← List.append_assoc] at heq
        obtain ⟨rfl, hz⟩ := List.append_inj' heq rfl
        obtain rfl := List.singleton_inj.mp hz
        rw [List.concat_eq_append] at hq
        exact .inr ⟨⟨p, y, q, rfl, hmakes, fun w hw => hq w (List.mem_append_left _ hw)⟩,
          hq x (List.mem_append_right _ (List.mem_singleton_self x))⟩

end Since

end Logful.Settings
