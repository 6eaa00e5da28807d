import Mathlib.Tactic.Linarith

/-!
Signed integers of a fixed width.

An operation computes with integers and wraps its result. A number that fits is not changed by
this, and the difference of two numbers that fit, the second not above the first, is either what
it should be or has come out negative.
-/

namespace Logful.SignedWords

/-- The numbers that a signed word of the width holds. -/
def InWord (w : ℕ) (n : ℤ) : Prop := -2 ^ (w - 1) ≤ n ∧ n < 2 ^ (w - 1)

instance (w : ℕ) (n : ℤ) : Decidable (InWord w n) := inferInstanceAs (Decidable (_ ∧ _))

/-- The number in a word that is left of an integer. -/
def wrap (w : ℕ) (n : ℤ) : ℤ := Int.bmod n (2 ^ w)

variable {w : ℕ} {n : ℤ}

lemma two_pow_eq (hw : 0 < w) : (2 : ℤ) ^ w = 2 ^ (w - 1) * 2 := by
  rw [← pow_succ, Nat.sub_add_cancel hw]

/-- A number that fits is itself. -/
lemma wrap_of_inWord (hw : 0 < w) (h : InWord w n) : wrap w n = n := by
  have hpow := two_pow_eq hw
  obtain ⟨hlo, hhi⟩ := h
  refine Int.bmod_eq_of_le_mul_two ?_ ?_
  · push_cast [hpow]
    omega
  · push_cast [hpow]
    omega

/-- A number that is too large, but by no more than one word, comes out as one less a word. -/
lemma wrap_of_le (hw : 0 < w) (hlo : 2 ^ (w - 1) ≤ n) (hhi : n < 2 ^ w) : wrap w n = n - 2 ^ w := by
  have hpow := two_pow_eq hw
  have hshift : wrap w n = wrap w (n - 2 ^ w) := by
    have hcast : ((2 ^ w : ℕ) : ℤ) = 2 ^ w := by push_cast; rfl
    rw [wrap, wrap, ← hcast, Int.sub_bmod_right]
  rw [hshift]
  exact wrap_of_inWord hw ⟨by omega, by omega⟩

/-- The difference of two words, the second one not above the first. -/
lemma wrap_sub {m : ℤ} (hw : 0 < w) (hm : InWord w m) (hn : InWord w n) (hle : n ≤ m) :
    wrap w (m - n) = if m - n < 2 ^ (w - 1) then m - n else m - n - 2 ^ w := by
  have hpow := two_pow_eq hw
  have hpos : (0 : ℤ) < 2 ^ (w - 1) := by positivity
  obtain ⟨-, hm⟩ := hm
  obtain ⟨hn, -⟩ := hn
  split_ifs with hlt
  · exact wrap_of_inWord hw ⟨by omega, hlt⟩
  · exact wrap_of_le hw (by omega) (by omega)

end Logful.SignedWords
