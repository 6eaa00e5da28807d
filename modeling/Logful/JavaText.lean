import Mathlib.Algebra.Ring.Int.Defs
import Mathlib.Data.List.DropRight
import Mathlib.Tactic.Common

/-!
The parts of Java's string library that the server uses.
-/

namespace Logful.JavaText

/-- The pieces of a string between the occurrences of a character. -/
def pieces (sep : Char) (s : String) : List String := (s.toList.splitOn sep).map String.ofList

/-- `split(sep)`: the empty pieces at the end are removed, and a string without the character
is its own only piece. -/
def split (sep : Char) (s : String) : List String :=
  if sep ∈ s.toList then (pieces sep s).rdropWhile (· = "") else [s]

/-- `split(sep)` for a separator of more than one character. -/
def splitAround (sep : String) (s : String) : List String :=
  match s.splitOn sep with
  | [_] => [s]
  | parts => parts.rdropWhile (· = "")

/-- `split(sep, 2)`: cut at the first occurrence, if there is one. -/
def splitInTwo (sep : Char) (s : String) : List String :=
  if sep ∈ s.toList then
    [.ofList (s.toList.takeWhile (· ≠ sep)), .ofList (s.toList.dropWhile (· ≠ sep)).tail]
  else [s]

/-- `substring(0, indexOf(ch))`, which throws when the character does not occur. -/
def substringBefore (ch : Char) (s : String) : Option String :=
  if ch ∈ s.toList then some (.ofList (s.toList.takeWhile (· ≠ ch))) else none

/-- What was joined is split again, if the last part is not empty. -/
lemma split_intercalate {sep : Char} {parts : List String} (hne : parts ≠ [])
    (hsep : ∀ p ∈ parts, sep ∉ p.toList) (hlast : ∀ p ∈ parts.getLast?, p ≠ "") :
    split sep ((String.singleton sep).intercalate parts) = parts := by
  have hpieces : pieces sep ((String.singleton sep).intercalate parts) = parts := by
    rw [pieces, String.toList_intercalate, String.toList_singleton,
      List.splitOn_intercalate sep (by simpa using hsep) (by simpa using hne)]
    simp
  unfold split
  split_ifs with hmem
  · rw [hpieces]
    obtain ⟨parts, p, rfl⟩ := List.eq_nil_or_concat' parts |>.resolve_left hne
    rw [List.rdropWhile_concat_neg]
    simpa using hlast
  · rwa [pieces, List.splitOn_eq_singleton hmem, List.map_singleton, String.ofList_toList]
      at hpieces

lemma splitInTwo_append {sep : Char} {s : String} (hsep : sep ∉ s.toList) (t : String) :
    splitInTwo sep (s ++ String.singleton sep ++ t) = [s, t] := by
  have htake : ∀ x ∈ s.toList, (decide (x ≠ sep)) = true := by
    intro x hx
    simpa using ne_of_mem_of_not_mem hx hsep
  have hlist : (s ++ String.singleton sep ++ t).toList = s.toList ++ sep :: t.toList := by
    simp
  rw [splitInTwo, hlist, if_pos (by simp), List.takeWhile_append_of_pos htake,
    List.dropWhile_append_of_pos htake]
  simp

/-! ### Comparing without case -/

/-- The characters that are equal to an ASCII letter but for case, as that letter. -/
def foldCase (ch : Char) : Char :=
  -- the long s, the Turkish dotless and dotted i and the Kelvin sign
  if ch.toNat = 0x017F then 's'
  else if ch.toNat = 0x0131 ∨ ch.toNat = 0x0130 then 'i'
  else if ch.toNat = 0x212A then 'k'
  else ch.toLower

/-- `equalsIgnoreCase` with a string of ASCII characters. -/
def equalsIgnoreCase (s ascii : String) : Bool :=
  s.toList.map foldCase = ascii.toList.map Char.toLower

/-! ### Numbers -/

/-- The code points of the decimal zeros of the basic plane; nine more digits follow each. -/
def digitZeros : List ℕ :=
  [0x0030, 0x0660, 0x06F0, 0x07C0, 0x0966, 0x09E6, 0x0A66, 0x0AE6, 0x0B66, 0x0BE6, 0x0C66,
    0x0CE6, 0x0D66, 0x0E50, 0x0ED0, 0x0F20, 0x1040, 0x1090, 0x17E0, 0x1810, 0x1946, 0x19D0,
    0x1A80, 0x1A90, 0x1B50, 0x1BB0, 0x1C40, 0x1C50, 0xA620, 0xA8D0, 0xA900, 0xA9D0, 0xAA50,
    0xABF0, 0xFF10]

/-- `Character.digit(ch, 10)`. -/
def digit (ch : Char) : Option ℕ :=
  (digitZeros.find? fun z => z ≤ ch.toNat ∧ ch.toNat < z + 10).map fun z => ch.toNat - z

/-- The number written by a non-empty string of digits. -/
def digits : List Char → Option ℕ
  | [] => none
  | ds => ds.foldlM (fun n ch => (digit ch).map fun d => n * 10 + d) 0

/-- An integer with an optional sign. -/
def signedDigits : List Char → Option ℤ
  | '-' :: ds => (digits ds).map fun n => -n
  | '+' :: ds => (digits ds).map fun n => n
  | ds => (digits ds).map fun n => n

/-- `Integer.parseInt` for 32 bits and `Long.parseLong` for 64. -/
def parseSigned (bits : ℕ) (s : String) : Option ℤ :=
  (signedDigits s.toList).filter fun n => -2 ^ (bits - 1) ≤ n ∧ n < 2 ^ (bits - 1)

abbrev parseInt := parseSigned 32
abbrev parseLong := parseSigned 64

/-- The digits of a number are read back. -/
lemma foldlM_digit (ds : List Char) (hds : ∀ ch ∈ ds, ch.isDigit) (n : ℕ) :
    ds.foldlM (fun n ch => (digit ch).map fun d => n * 10 + d) n =
      some (Nat.ofDigitChars 10 ds n) := by
  induction ds generalizing n with
  | nil => rfl
  | cons ch ds ih =>
    obtain ⟨hlo, hhi⟩ : 48 ≤ ch.toNat ∧ ch.toNat ≤ 57 := by
      simpa [Char.isDigit, UInt32.le_iff_toNat_le] using hds ch List.mem_cons_self
    have hdigit : digit ch = some (ch.toNat - 48) := by
      rw [digit, digitZeros, List.find?_cons_of_pos (by simp; omega)]
      rfl
    rw [List.foldlM_cons, hdigit, Nat.ofDigitChars_cons, Nat.mul_comm 10 n]
    exact ih (fun c hc => hds c (List.mem_cons_of_mem ch hc)) _

lemma digits_toDigits (n : ℕ) : digits (Nat.toDigits 10 n) = some n := by
  have hds : ∀ ch ∈ Nat.toDigits 10 n, ch.isDigit := fun ch hch =>
    Nat.isDigit_of_mem_toDigits (by decide) (by decide) hch
  have hfold := foldlM_digit (Nat.toDigits 10 n) hds 0
  rw [Nat.ofDigitChars_ten_toDigits] at hfold
  obtain ⟨ch, ds, heq⟩ := List.exists_cons_of_ne_nil (Nat.toDigits_ne_nil (n := n) (b := 10))
  rw [heq] at hfold ⊢
  exact hfold

lemma signedDigits_toString (n : ℤ) : signedDigits (toString n).toList = some n := by
  rw [Int.toString_eq_repr, Int.repr_eq_if]
  split_ifs with hn
  · rw [Nat.toList_repr]
    have hne : Nat.toDigits 10 n.toNat ≠ [] := Nat.toDigits_ne_nil
    obtain ⟨ch, ds, heq⟩ := List.exists_cons_of_ne_nil hne
    have hdigit : ch.isDigit := by
      refine Nat.isDigit_of_mem_toDigits (b := 10) (n := n.toNat) (by decide) (by decide) ?_
      rw [heq]
      exact List.mem_cons_self
    have hdigits := digits_toDigits n.toNat
    rw [heq] at hdigits ⊢
    unfold signedDigits
    split
    · next h =>
      cases h
      exact absurd hdigit (by decide)
    · next h =>
      cases h
      exact absurd hdigit (by decide)
    · rw [hdigits]
      exact congrArg some (Int.toNat_of_nonneg hn)
  · rw [String.toList_append, Nat.toList_repr]
    change signedDigits ('-' :: Nat.toDigits 10 (-n).toNat) = some n
    have hneg : -((-n).toNat : ℤ) = n := by rw [Int.toNat_of_nonneg (by omega), neg_neg]
    rw [signedDigits, digits_toDigits]
    exact congrArg some hneg

/-- An integer that fits is read back from its decimal notation, and no other one is read. -/
theorem parseSigned_toString (bits : ℕ) (n : ℤ) : parseSigned bits (toString n) =
    if -2 ^ (bits - 1) ≤ n ∧ n < 2 ^ (bits - 1) then some n else none := by
  rw [parseSigned, signedDigits_toString, Option.filter_some]
  simp

example : split '|' "a|b||" = ["a", "b"] ∧ split '|' "" = [""] ∧ split '|' "|" = [] := by decide

example : parseInt "-2147483648" = some (-2147483648) ∧ parseInt "2147483648" = none ∧
    parseInt "+" = none := by decide

end Logful.JavaText
