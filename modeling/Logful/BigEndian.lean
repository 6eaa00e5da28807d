import Mathlib.Algebra.Order.Group.Int
import Mathlib.Data.Int.ModEq
import Mathlib.Tactic.Positivity
import Mathlib.Tactic.Ring

/-!
Big-endian two's complement integers in byte strings.

A read takes the first `w` bytes of a string that has at least that many and is undefined
on a shorter one; a write produces exactly `w` bytes. Reading what was written gives the
number back when it fits in `w` bytes.
-/

namespace Logful.BigEndian

abbrev Bytes := List UInt8

/-- The bytes read as one unsigned number, the first byte the most significant. -/
def unsigned (bs : Bytes) : ℕ := bs.foldl (fun n b => n * 256 + b.toNat) 0

/-- The bytes read in two's complement. -/
def signed (bs : Bytes) : ℤ := Int.bmod (unsigned bs) (256 ^ bs.length)

/-- The number in the first `w` bytes, if there are that many. -/
def get (w : ℕ) (bs : Bytes) : Option ℤ :=
  if w ≤ bs.length then some (signed (bs.take w)) else none

/-- The low `w` bytes of a number. -/
def put : ℕ → ℤ → Bytes
  | 0, _ => []
  | w + 1, n => put w (n / 256) ++ [UInt8.ofNat (n % 256).toNat]

@[simp] lemma unsigned_nil : unsigned [] = 0 := rfl

lemma unsigned_concat (bs : Bytes) (b : UInt8) :
    unsigned (bs ++ [b]) = unsigned bs * 256 + b.toNat := by
  simp [unsigned, List.foldl_append]

@[simp] lemma length_put (w : ℕ) (n : ℤ) : (put w n).length = w := by
  induction w generalizing n with
  | zero => rfl
  | succ w ih => simp [put, ih]

lemma toNat_low_byte (n : ℤ) : (UInt8.ofNat (n % 256).toNat).toNat = (n % 256).toNat := by
  have h0 : 0 ≤ n % 256 := Int.emod_nonneg n (by omega)
  have h1 : n % 256 < 256 := Int.emod_lt_of_pos n (by omega)
  rw [UInt8.toNat_ofNat']
  exact Nat.mod_eq_of_lt (by omega)

lemma unsigned_put (w : ℕ) (n : ℤ) : (unsigned (put w n) : ℤ) = n % 256 ^ w := by
  induction w generalizing n with
  | zero => simp [put]
  | succ w ih =>
    have hpos : (0 : ℤ) < 256 ^ w := by positivity
    have h0 : 0 ≤ n % 256 := Int.emod_nonneg n (by omega)
    have h1 : n % 256 < 256 := Int.emod_lt_of_pos n (by omega)
    have hr0 : 0 ≤ n / 256 % 256 ^ w := Int.emod_nonneg _ hpos.ne'
    have hr1 : n / 256 % 256 ^ w < 256 ^ w := Int.emod_lt_of_pos _ hpos
    have hsplit : n = n / 256 % 256 ^ w * 256 + n % 256 +
        256 ^ (w + 1) * (n / 256 / 256 ^ w) := by
      calc n = 256 * (n / 256) + n % 256 := (Int.mul_ediv_add_emod n 256).symm
        _ = 256 * (256 ^ w * (n / 256 / 256 ^ w) + n / 256 % 256 ^ w) + n % 256 := by
          rw [Int.mul_ediv_add_emod (n / 256) (256 ^ w)]
        _ = _ := by ring
    have hlt : n / 256 % 256 ^ w * 256 + n % 256 < 256 ^ (w + 1) := by
      rw [pow_succ]; omega
    rw [put, unsigned_concat, toNat_low_byte, Nat.cast_add, Nat.cast_mul, ih,
      Int.toNat_of_nonneg h0]
    conv_rhs => rw [hsplit, Int.add_mul_emod_self_left]
    exact (Int.emod_eq_of_lt (by positivity) hlt).symm

lemma signed_put (w : ℕ) (n : ℤ) : signed (put w n) = Int.bmod n (256 ^ w) := by
  rw [signed, unsigned_put, length_put]
  simpa using Int.emod_bmod (x := n) (n := 256 ^ w)

/-- **Round trip.** A number in the range of `w` bytes is read back from what was written
for it, whatever follows. -/
theorem get_put {w : ℕ} {n : ℤ} (hlo : -(256 ^ w : ℕ) ≤ n * 2) (hhi : n * 2 < (256 ^ w : ℕ))
    (rest : Bytes) : get w (put w n ++ rest) = some n := by
  have htake : (put w n ++ rest).take w = put w n := by
    rw [List.take_append_of_le_length (by simp), List.take_of_length_le (by simp)]
  rw [get, if_pos (by simp), htake, signed_put, Int.bmod_eq_of_le_mul_two hlo hhi]

lemma get_eq_some {w : ℕ} {bs : Bytes} (h : w ≤ bs.length) :
    get w bs = some (signed (bs.take w)) :=
  if_pos h

end Logful.BigEndian
