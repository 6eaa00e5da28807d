import Mathlib.Tactic.Lemma

/-!
Postconditions of computations that may throw.

`Holds x Q E` says that `x` returns a value with `Q` or throws an exception with `E`. The
rules follow the sequencing of a `do` block, so a function written in one has its
specification proved step by step from those of the functions it calls.
-/

namespace Logful.Outcome

variable {ε α β : Type}

def Holds (x : Except ε α) (Q : α → Prop) (E : ε → Prop) : Prop :=
  match x with
  | .ok a => Q a
  | .error e => E e

variable {Q P : α → Prop} {R : β → Prop} {E F : ε → Prop}

@[simp] lemma holds_ok {a : α} : Holds (.ok a) Q E ↔ Q a := Iff.rfl

@[simp] lemma holds_error {e : ε} : Holds (.error e) Q E ↔ E e := Iff.rfl

lemma holds_true (x : Except ε α) : Holds x (fun _ => True) (fun _ => True) := by
  cases x <;> trivial

lemma Holds.bind {x : Except ε α} {g : α → Except ε β} (h : Holds x Q E)
    (hg : ∀ a, Q a → Holds (g a) R E) : Holds (x >>= g) R E := by
  cases x with
  | error e => exact h
  | ok a => exact hg a h

lemma Holds.mono {x : Except ε α} (h : Holds x Q E) (hQ : ∀ a, Q a → P a)
    (hE : ∀ e, E e → F e) : Holds x P F := by
  cases x with
  | error e => exact hE e h
  | ok a => exact hQ a h

lemma Holds.of_ok {x : Except ε α} {a : α} (h : Holds x Q E) (hx : x = .ok a) : Q a := by
  subst hx
  exact h

lemma Holds.of_error {x : Except ε α} {e : ε} (h : Holds x Q E) (hx : x = .error e) : E e := by
  subst hx
  exact h

/-- What follows a value that was computed without an exception. -/
lemma ok_bind (a : α) (g : α → Except ε β) : (Except.ok a >>= g) = g a := by
  simp [bind, Except.bind]

end Logful.Outcome
