import Mathlib.Data.List.Basic
import Mathlib.Tactic.Common

/-!
JSON texts of one object whose members are strings, numbers and nulls.

A writer escapes the control characters, the quote and the backslash, and a character above
65535 as the two halves of a surrogate pair. A reader gets back what was written, with the
members in their order and each literal of a number as it stood. A text has no control
characters, and so its UTF-8 bytes have no zero.
-/

namespace Logful.JsonText

/-! ### UTF-8 -/

/-- The bytes of a text. -/
def utf8 (l : List Char) : List UInt8 := l.flatMap String.utf8EncodeChar

/-- The text of the bytes, if they are well-formed. -/
def utf8Decode (bs : List UInt8) : Option (List Char) :=
  (ByteArray.mk bs.toArray).utf8Decode?.map Array.toList

lemma utf8Decode_utf8 (l : List Char) : utf8Decode (utf8 l) = some l := by
  have h : ByteArray.mk (utf8 l).toArray = l.utf8Encode := by
    ext1
    simp [List.utf8Encode, utf8]
  rw [utf8Decode, h, List.utf8Decode?_utf8Encode]
  rfl

lemma le_toNat_or (x : UInt8) {k : UInt8} (hk : 128 ≤ k.toNat) : 128 ≤ (x ||| k).toNat := by
  rw [UInt8.toNat_or]
  exact Nat.le_trans hk Nat.right_le_or

/-- A byte below 128 comes of the character with its number, and of no other. -/
lemma toNat_eq_of_mem_utf8EncodeChar {c : Char} {b : UInt8} (hb : b.toNat < 128)
    (h : b ∈ String.utf8EncodeChar c) : c.toNat = b.toNat := by
  rcases c.utf8Size_eq with hs | hs | hs | hs
  · rw [String.utf8EncodeChar_eq_singleton hs, List.mem_singleton] at h
    have hle : c.val.toNat ≤ 127 := UInt32.le_iff_toNat_le.mp (Char.utf8Size_eq_one_iff.mp hs)
    rw [h, UInt32.toNat_toUInt8]
    exact (Nat.mod_eq_of_lt (Nat.lt_of_le_of_lt hle (by omega))).symm
  -- every byte of a longer code has its highest bit set
  all_goals
    exfalso
    first
    | rw [String.utf8EncodeChar_eq_cons_cons hs] at h
    | rw [String.utf8EncodeChar_eq_cons_cons_cons hs] at h
    | rw [String.utf8EncodeChar_eq_cons_cons_cons_cons hs] at h
    simp only [List.mem_cons, List.not_mem_nil, or_false] at h
    rcases h with rfl | rfl | rfl | rfl <;>
      exact absurd hb (Nat.not_lt.mpr (le_toNat_or _ (by decide)))

lemma zero_notMem_utf8 {l : List Char} (h : ∀ c ∈ l, c.toNat ≠ 0) : 0 ∉ utf8 l := by
  intro hmem
  obtain ⟨c, hc, hin⟩ := List.mem_flatMap.mp hmem
  exact h c hc (toNat_eq_of_mem_utf8EncodeChar (by decide) hin)

/-! ### Strings -/

def hexDigit (n : ℕ) : Char :=
  ['0', '1', '2', '3', '4', '5', '6', '7', '8', '9', 'A', 'B', 'C', 'D', 'E', 'F'].getD n '0'

def hexValue (c : Char) : Option ℕ :=
  if c.isDigit then some (c.toNat - 48)
  else if 'A' ≤ c ∧ c ≤ 'F' then some (c.toNat - 55)
  else if 'a' ≤ c ∧ c ≤ 'f' then some (c.toNat - 87)
  else none

lemma hexValue_hexDigit : ∀ n < 16, hexValue (hexDigit n) = some n := by decide

/-- The characters with an escape of two characters, each with its second one. -/
def shortEscapes : List (Char × Char) :=
  [('"', '"'), ('\\', '\\'), ('\x08', 'b'), ('\t', 't'), ('\n', 'n'), ('\x0c', 'f'),
    ('\r', 'r')]

/-- The escape of a 16-bit number. -/
def escapeHex (n : ℕ) : List Char :=
  ['\\', 'u', hexDigit (n / 4096 % 16), hexDigit (n / 256 % 16), hexDigit (n / 16 % 16),
    hexDigit (n % 16)]

/-- The halves of the surrogate pair of a character. -/
def highSurrogate (c : Char) : ℕ := 0xd800 + (c.toNat - 0x10000) / 0x400

def lowSurrogate (c : Char) : ℕ := 0xdc00 + (c.toNat - 0x10000) % 0x400

def escape (c : Char) : List Char :=
  match shortEscapes.lookup c with
  | some e => ['\\', e]
  | none =>
    if c.toNat < 32 then escapeHex c.toNat
    else if c.toNat < 0x10000 then [c]
    else escapeHex (highSurrogate c) ++ escapeHex (lowSurrogate c)

def writeString (s : String) : List Char := '"' :: (s.toList.flatMap escape ++ ['"'])

/-- The character of an escape of two characters. -/
def unescape : Char → Option Char
  | '"' => some '"'
  | '\\' => some '\\'
  | '/' => some '/'
  | 'b' => some '\x08'
  | 't' => some '\t'
  | 'n' => some '\n'
  | 'f' => some '\x0c'
  | 'r' => some '\r'
  | _ => none

/-- The number of four hexadecimal digits. -/
def hexNumber (a b c d : Char) : Option ℕ := do
  let a ← hexValue a
  let b ← hexValue b
  let c ← hexValue c
  let d ← hexValue d
  return ((a * 16 + b) * 16 + c) * 16 + d

/-- The character of a surrogate pair. -/
def pairChar (high low : ℕ) : Char := .ofNat (0x10000 + (high - 0xd800) * 0x400 + (low - 0xdc00))

/-- A string behind its first quote, and what follows it. -/
def readString : List Char → Option (List Char × List Char)
  | [] => none
  | c :: rest =>
    if c = '"' then some ([], rest)
    else if c = '\\' then
      match rest with
      | 'u' :: a :: b :: c :: d :: rest =>
        (hexNumber a b c d).bind fun n =>
          if n.isValidChar then (readString rest).map fun p => (.ofNat n :: p.1, p.2)
          else
            match rest with
            | '\\' :: 'u' :: a :: b :: c :: d :: rest =>
              (hexNumber a b c d).bind fun m =>
                if n < 0xdc00 ∧ 0xdc00 ≤ m ∧ m < 0xe000 then
                  (readString rest).map fun p => (pairChar n m :: p.1, p.2)
                else none
            | _ => none
      | e :: rest => (unescape e).bind fun ch => (readString rest).map fun p => (ch :: p.1, p.2)
      | [] => none
    else if c.toNat < 32 then none
    else (readString rest).map fun p => (c :: p.1, p.2)

lemma lookup_shortEscapes {c e : Char} (h : shortEscapes.lookup c = some e) :
    32 ≤ e.toNat ∧ e ≠ 'u' ∧ unescape e = some c := by
  have hall : ∀ p ∈ shortEscapes, 32 ≤ p.2.toNat ∧ p.2 ≠ 'u' ∧ unescape p.2 = some p.1 := by
    decide
  have hmem : (c, e) ∈ shortEscapes := by
    obtain ⟨l, l', heq, -⟩ := List.lookup_eq_some_iff.mp h
    rw [heq]
    exact List.mem_append_right l List.mem_cons_self
  exact hall _ hmem

lemma hexNumber_digits {n : ℕ} (h : n < 0x10000) :
    hexNumber (hexDigit (n / 4096 % 16)) (hexDigit (n / 256 % 16)) (hexDigit (n / 16 % 16))
      (hexDigit (n % 16)) = some n := by
  have hdigit : ∀ k, hexValue (hexDigit (k % 16)) = some (k % 16) := fun k =>
    hexValue_hexDigit _ (Nat.mod_lt _ (by decide))
  have hnat : ((n / 4096 % 16 * 16 + n / 256 % 16) * 16 + n / 16 % 16) * 16 + n % 16 = n := by
    omega
  simp only [hexNumber, hdigit, Option.bind_eq_bind, Option.bind_some, Option.pure_def, hnat]

/-- A character above 65535 is escaped in two halves, and they give it back. -/
lemma surrogates {c : Char} (h : 0x10000 ≤ c.toNat) :
    (0xd800 ≤ highSurrogate c ∧ highSurrogate c < 0xdc00) ∧
      (0xdc00 ≤ lowSurrogate c ∧ lowSurrogate c < 0xe000) ∧
      pairChar (highSurrogate c) (lowSurrogate c) = c := by
  have hlt : c.toNat < 0x110000 := by
    rcases c.valid with hlow | ⟨-, hhigh⟩
    · exact Nat.lt_trans hlow (by decide)
    · exact hhigh
  have hnat : 0x10000 + (highSurrogate c - 0xd800) * 0x400 + (lowSurrogate c - 0xdc00) =
      c.toNat := by
    simp only [highSurrogate, lowSurrogate]
    omega
  refine ⟨?_, ?_, ?_⟩
  · simp only [highSurrogate]
    omega
  · simp only [lowSurrogate]
    omega
  · rw [pairChar, hnat, Char.ofNat_toNat]

/-- The escape of a number that is a character. -/
lemma readString_escapeHex {n : ℕ} (hn : n < 0x10000) (hvalid : n.isValidChar)
    (rest : List Char) :
    readString (escapeHex n ++ rest) = (readString rest).map fun p => (.ofNat n :: p.1, p.2) := by
  have hnumber := hexNumber_digits hn
  simp only [escapeHex, List.cons_append, List.nil_append]
  rw [readString, if_neg (by decide), if_pos rfl]
  simp only [hnumber, Option.bind_some, if_pos hvalid]

/-- The escapes of two halves. -/
lemma readString_pair {high low : ℕ} (hhigh : 0xd800 ≤ high ∧ high < 0xdc00)
    (hlow : 0xdc00 ≤ low ∧ low < 0xe000) (rest : List Char) :
    readString (escapeHex high ++ (escapeHex low ++ rest)) =
      (readString rest).map fun p => (pairChar high low :: p.1, p.2) := by
  have hnumber := hexNumber_digits (n := high) (by omega)
  have hnumber' := hexNumber_digits (n := low) (by omega)
  have hnot : ¬ high.isValidChar := by
    rintro (h | ⟨h, -⟩) <;> omega
  have hpair : high < 0xdc00 ∧ 0xdc00 ≤ low ∧ low < 0xe000 := ⟨hhigh.2, hlow⟩
  simp only [escapeHex, List.cons_append, List.nil_append]
  rw [readString, if_neg (by decide), if_pos rfl]
  simp only [hnumber, hnumber', Option.bind_some, if_neg hnot, if_pos hpair]

/-- An escaped character is read as the character. -/
lemma readString_escape (c : Char) (rest : List Char) :
    readString (escape c ++ rest) = (readString rest).map fun p => (c :: p.1, p.2) := by
  unfold escape
  cases hshort : shortEscapes.lookup c with
  | some e =>
    obtain ⟨-, hu, he⟩ := lookup_shortEscapes hshort
    simp only [List.cons_append, List.nil_append]
    rw [readString, if_neg (by decide), if_pos rfl, he, Option.bind_some]
    exact fun _ _ _ _ _ heq => absurd heq hu
  | none =>
    simp only
    split_ifs with hcontrol hplain
    · rw [readString_escapeHex (Nat.lt_trans hcontrol (by decide)) c.valid, Char.ofNat_toNat]
    · have hquote : c ≠ '"' := by
        rintro rfl
        simp [shortEscapes] at hshort
      have hslash : c ≠ '\\' := by
        rintro rfl
        simp [shortEscapes, List.lookup_cons] at hshort
      rw [List.singleton_append, readString.eq_def]
      simp only [if_neg hquote, if_neg hslash, if_neg hcontrol]
    · obtain ⟨hhigh, hlow, hpair⟩ := surrogates (Nat.le_of_not_lt hplain)
      rw [List.append_assoc, readString_pair hhigh hlow, hpair]

lemma readString_flatMap (l rest : List Char) :
    readString (l.flatMap escape ++ '"' :: rest) = some (l, rest) := by
  induction l with
  | nil =>
    rw [List.flatMap_nil, List.nil_append, readString.eq_def]
    exact if_pos rfl
  | cons c l ih =>
    rw [List.flatMap_cons, List.append_assoc, readString_escape, ih]
    rfl

lemma toNat_of_mem_escapeHex {n : ℕ} {x : Char} (h : x ∈ escapeHex n) : 32 ≤ x.toNat := by
  have hhex : ∀ k < 16, 32 ≤ (hexDigit k).toNat := by decide
  simp only [escapeHex, List.mem_cons, List.not_mem_nil, or_false] at h
  rcases h with rfl | rfl | rfl | rfl | rfl | rfl
  · decide
  · decide
  all_goals exact hhex _ (Nat.mod_lt _ (by decide))

/-- No text of a string has a control character. -/
lemma toNat_of_mem_escape {c x : Char} (h : x ∈ escape c) : 32 ≤ x.toNat := by
  unfold escape at h
  cases hshort : shortEscapes.lookup c with
  | some e =>
    simp only [hshort, List.mem_cons, List.not_mem_nil, or_false] at h
    rcases h with rfl | rfl
    · decide
    · exact (lookup_shortEscapes hshort).1
  | none =>
    simp only [hshort] at h
    split_ifs at h with hcontrol
    · exact toNat_of_mem_escapeHex h
    · rw [List.mem_singleton.mp h]
      omega
    · exact (List.mem_append.mp h).elim toNat_of_mem_escapeHex toNat_of_mem_escapeHex

/-! ### Objects -/

inductive Scalar
  | string (s : String)
  | number (literal : String)
  | null
  deriving DecidableEq

abbrev Members := List (String × Scalar)

def isNumberChar (c : Char) : Bool := c.isDigit || c ∈ ['+', '-', '.', 'e', 'E']

/-- What stands for a number in a text. -/
def IsNumber (literal : String) : Prop :=
  literal ≠ "" ∧ ∀ c ∈ literal.toList, isNumberChar c = true

instance (literal : String) : Decidable (IsNumber literal) :=
  decidable_of_iff (literal ≠ "" ∧ literal.toList.all isNumberChar = true) (by simp [IsNumber])

def Scalar.WellFormed : Scalar → Prop
  | .number literal => IsNumber literal
  | _ => True

def writeScalar : Scalar → List Char
  | .string s => writeString s
  | .number literal => literal.toList
  | .null => ['n', 'u', 'l', 'l']

def writeMember (m : String × Scalar) : List Char := writeString m.1 ++ ':' :: writeScalar m.2

/-- The members with a comma between each two of them. -/
def writeMembers : Members → List Char
  | [] => []
  | [m] => writeMember m
  | m :: ms => writeMember m ++ ',' :: writeMembers ms

def write (ms : Members) : List Char := '{' :: (writeMembers ms ++ ['}'])

def readScalar : List Char → Option (Scalar × List Char)
  | '"' :: rest => (readString rest).map fun p => (.string (.ofList p.1), p.2)
  | 'n' :: 'u' :: 'l' :: 'l' :: rest => some (.null, rest)
  | l =>
    match l.takeWhile isNumberChar with
    | [] => none
    | literal => some (.number (.ofList literal), l.dropWhile isNumberChar)

def readMember : List Char → Option ((String × Scalar) × List Char)
  | '"' :: rest =>
    match readString rest with
    | some (name, ':' :: rest) => (readScalar rest).map fun p => ((.ofList name, p.1), p.2)
    | _ => none
  | _ => none

/-- The members up to the end of the text, at most as many as the first argument. -/
def readMembers : ℕ → List Char → Option Members
  | 0, _ => none
  | n + 1, l =>
    match readMember l with
    | some (m, ',' :: rest) => (readMembers n rest).map (m :: ·)
    | some (m, ['}']) => some [m]
    | _ => none

/-- The members of an object that is the whole text. -/
def read : List Char → Option Members
  | ['{', '}'] => some []
  | '{' :: rest => readMembers rest.length rest
  | _ => none

/-- What may follow a member: the end of the object, or the next member. -/
def Ends (l : List Char) : Prop := ∃ c rest, l = c :: rest ∧ isNumberChar c = false

lemma readScalar_number {literal : String} (h : IsNumber literal) {rest : List Char}
    (hrest : Ends rest) :
    readScalar (literal.toList ++ rest) = some (.number literal, rest) := by
  obtain ⟨c, rest, rfl, hc⟩ := hrest
  have htake : (literal.toList ++ c :: rest).takeWhile isNumberChar = literal.toList := by
    rw [List.takeWhile_append_of_pos h.2, List.takeWhile_cons_of_neg (by simp [hc]),
      List.append_nil]
  have hdrop : (literal.toList ++ c :: rest).dropWhile isNumberChar = c :: rest := by
    rw [List.dropWhile_append_of_pos h.2, List.dropWhile_cons_of_neg (by simp [hc])]
  obtain ⟨x, l, hl⟩ : ∃ x l, literal.toList = x :: l := by
    refine List.exists_cons_of_ne_nil fun hnil => h.1 ?_
    exact String.toList_eq_nil_iff.mp hnil
  have hx : isNumberChar x = true := h.2 x (hl ▸ List.mem_cons_self)
  have hquote : x ≠ '"' := by
    rintro rfl
    cases hx
  have hn : x ≠ 'n' := by
    rintro rfl
    cases hx
  have hofList : String.ofList (x :: l) = literal := by rw [← hl, String.ofList_toList]
  rw [hl] at htake hdrop ⊢
  unfold readScalar
  split
  · next heq => exact absurd (List.cons.inj heq).1 hquote
  · next heq => exact absurd (List.cons.inj heq).1 hn
  · rw [htake, hdrop]
    exact congrArg (fun s => some (Scalar.number s, c :: rest)) hofList

lemma readScalar_writeScalar {x : Scalar} (h : x.WellFormed) {rest : List Char}
    (hrest : Ends rest) : readScalar (writeScalar x ++ rest) = some (x, rest) := by
  cases x with
  | string s =>
    have hread := readString_flatMap s.toList rest
    simp only [writeScalar, writeString, List.cons_append, List.append_assoc, List.nil_append,
      readScalar, hread, Option.map_some, String.ofList_toList]
  | number literal => exact readScalar_number h hrest
  | null => rfl

lemma readMember_writeMember {m : String × Scalar} (h : m.2.WellFormed) {rest : List Char}
    (hrest : Ends rest) : readMember (writeMember m ++ rest) = some (m, rest) := by
  have hread := readString_flatMap m.1.toList (':' :: (writeScalar m.2 ++ rest))
  simp only [writeMember, writeString, List.cons_append, List.append_assoc, List.nil_append,
    readMember, hread, readScalar_writeScalar h hrest, Option.map_some, String.ofList_toList]

lemma readMembers_writeMembers {ms : Members} (hne : ms ≠ [])
    (h : ∀ m ∈ ms, m.2.WellFormed) {n : ℕ} (hn : ms.length ≤ n) :
    readMembers n (writeMembers ms ++ ['}']) = some ms := by
  induction ms generalizing n with
  | nil => exact absurd rfl hne
  | cons m ms ih =>
    obtain ⟨n, rfl⟩ : ∃ k, n = k + 1 := Nat.exists_eq_succ_of_ne_zero (by simp at hn; omega)
    have hm : m.2.WellFormed := h m List.mem_cons_self
    cases ms with
    | nil =>
      have hread : readMember (writeMember m ++ ['}']) = some (m, ['}']) :=
        readMember_writeMember hm ⟨'}', [], rfl, rfl⟩
      rw [writeMembers, readMembers, hread]
      rfl
    | cons m' ms =>
      have hread : readMember (writeMember m ++ ',' :: (writeMembers (m' :: ms) ++ ['}'])) =
          some (m, ',' :: (writeMembers (m' :: ms) ++ ['}'])) :=
        readMember_writeMember hm ⟨',', _, rfl, rfl⟩
      rw [writeMembers, readMembers, List.append_assoc, List.cons_append, hread]
      · simp only [ih (List.cons_ne_nil _ _) (fun x hx => h x (List.mem_cons_of_mem m hx))
          (by simpa using hn), Option.map_some]
      · exact List.cons_ne_nil _ _

/-- **Round trip.** What was written is read back. -/
theorem read_write {ms : Members} (h : ∀ m ∈ ms, m.2.WellFormed) : read (write ms) = some ms := by
  cases ms with
  | nil => rfl
  | cons m ms =>
    have hlen : ∀ ms : Members, ms.length ≤ (writeMembers ms ++ ['}']).length := by
      intro ms
      induction ms with
      | nil => simp [writeMembers]
      | cons m ms ih =>
        cases ms with
        | nil => simp [writeMembers]
        | cons m' ms =>
          simp only [writeMembers, List.length_append, List.length_cons] at ih ⊢
          omega
    have hread := readMembers_writeMembers (List.cons_ne_nil m ms) h (hlen (m :: ms))
    have hquote : ∃ l, writeMembers (m :: ms) ++ ['}'] = '"' :: l := by
      cases ms <;> exact ⟨_, rfl⟩
    obtain ⟨l, hl⟩ := hquote
    rw [write, hl]
    rw [hl] at hread
    exact hread

/-! ### Control characters -/

def Printable (l : List Char) : Prop := ∀ c ∈ l, 32 ≤ c.toNat

lemma Printable.append {l m : List Char} (hl : Printable l) (hm : Printable m) :
    Printable (l ++ m) := fun c hc => (List.mem_append.mp hc).elim (hl c) (hm c)

lemma Printable.cons {c : Char} {l : List Char} (hc : 32 ≤ c.toNat) (hl : Printable l) :
    Printable (c :: l) := List.forall_mem_cons.mpr ⟨hc, hl⟩

lemma printable_nil : Printable [] := List.forall_mem_nil _

lemma printable_writeString (s : String) : Printable (writeString s) := by
  have hescaped : Printable (s.toList.flatMap escape) := by
    intro c hc
    obtain ⟨x, -, hx⟩ := List.mem_flatMap.mp hc
    exact toNat_of_mem_escape hx
  exact .cons (by decide) (hescaped.append (.cons (by decide) printable_nil))

lemma toNat_of_isNumberChar {c : Char} (hc : isNumberChar c = true) : 32 ≤ c.toNat := by
  simp only [isNumberChar, Char.isDigit, Bool.or_eq_true, Bool.and_eq_true, decide_eq_true_eq,
    List.mem_cons, List.not_mem_nil, or_false] at hc
  rcases hc with ⟨hc, -⟩ | rfl | rfl | rfl | rfl | rfl
  · have hle : 48 ≤ c.val.toNat := UInt32.le_iff_toNat_le.mp hc
    exact Nat.le_trans (by decide) hle
  all_goals decide

lemma printable_writeScalar {x : Scalar} (h : x.WellFormed) : Printable (writeScalar x) := by
  cases x with
  | string s => exact printable_writeString s
  | number literal => exact fun c hc => toNat_of_isNumberChar (h.2 c hc)
  | null =>
    exact .cons (by decide) (.cons (by decide) (.cons (by decide) (.cons (by decide)
      printable_nil)))

lemma printable_writeMember {m : String × Scalar} (h : m.2.WellFormed) :
    Printable (writeMember m) :=
  (printable_writeString m.1).append (.cons (by decide) (printable_writeScalar h))

lemma printable_writeMembers {ms : Members} (h : ∀ m ∈ ms, m.2.WellFormed) :
    Printable (writeMembers ms) := by
  induction ms with
  | nil => exact printable_nil
  | cons m ms ih =>
    have hm := printable_writeMember (h m List.mem_cons_self)
    have hrest := ih fun x hx => h x (List.mem_cons_of_mem m hx)
    cases ms with
    | nil => exact hm
    | cons m' ms => exact hm.append (.cons (by decide) hrest)

/-- A text has no control characters. -/
lemma printable_write {ms : Members} (h : ∀ m ∈ ms, m.2.WellFormed) : Printable (write ms) :=
  .cons (by decide) ((printable_writeMembers h).append (.cons (by decide) printable_nil))

end Logful.JsonText
