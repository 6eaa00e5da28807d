import Logful.JavaText

/-!
File paths.

A path is taken apart into its names, where separators that follow each other count as one
and a separator at the end for none. A file lies directly in a directory when its names are
those of the directory and one more, which is a name of its own.
-/

namespace Logful.Paths

open Logful.JavaText

/-- A path without the spelling of its separators. -/
structure File where
  absolute : Bool
  names : List String
  deriving DecidableEq

def file (path : String) : File where
  absolute := path.toList.head? = some '/'
  names := (pieces '/' path).filter (· ≠ "")

/-- `File.getName`: the last name of a path. -/
def getName (path : String) : String := (file path).names.getLast?.getD ""

/-- A name that is neither of the two for a directory itself and for the one above it. -/
def Proper (name : String) : Prop := name ≠ "." ∧ name ≠ ".."

instance (name : String) : Decidable (Proper name) := inferInstanceAs (Decidable (_ ∧ _))

/-- The path lies directly in the directory. -/
def DirectChild (dir path : String) : Prop :=
  ∃ name, Proper name ∧ file path = ⟨(file dir).absolute, (file dir).names ++ [name]⟩

/-- The name of a path begins with the string. -/
def NameStartsWith (start path : String) : Prop :=
  ∃ name ∈ (file path).names.getLast?, start.toList <+: name.toList

/-! ### Joining -/

lemma pieces_append (sep : Char) (a b : String) :
    pieces sep (a ++ String.singleton sep ++ b) = pieces sep a ++ pieces sep b := by
  unfold pieces
  rw [← List.map_append, ← List.splitOn_append_cons_self]
  simp

lemma pieces_injective (sep : Char) : Function.Injective (pieces sep) := by
  intro a b h
  have hlist : a.toList.splitOn sep = b.toList.splitOn sep :=
    List.map_injective_iff.mpr (fun _ _ => String.ofList_injective) h
  have hjoin := congrArg [sep].intercalate hlist
  rw [List.intercalate_splitOn, List.intercalate_splitOn] at hjoin
  exact String.toList_injective hjoin

lemma pieces_eq_singleton {sep : Char} {s : String} (h : sep ∉ s.toList) :
    pieces sep s = [s] := by
  rw [pieces, List.splitOn_eq_singleton h]
  simp

lemma file_join {dir : String} (hdir : dir ≠ "") (name : String) :
    file (dir ++ "/" ++ name) = ⟨(file dir).absolute, (file dir).names ++ (file name).names⟩ := by
  have hne : dir.toList ≠ [] := by simpa using hdir
  have hp := pieces_append '/' dir name
  rw [show String.singleton '/' = "/" from rfl] at hp
  rw [file, hp, List.filter_append]
  obtain ⟨ch, l, hl⟩ := List.exists_cons_of_ne_nil hne
  simp [file, hl]

/-- What is joined to a directory lies directly in it when it is one proper name. -/
lemma directChild_join {dir : String} (hdir : dir ≠ "") {name : String} :
    DirectChild dir (dir ++ "/" ++ name) ↔
      ∃ n, Proper n ∧ (file name).names = [n] := by
  unfold DirectChild
  rw [file_join hdir]
  simp

lemma file_names_of_noSlash {s : String} (hs : s ≠ "") (h : '/' ∉ s.toList) :
    (file s).names = [s] := by
  simp [file, pieces_eq_singleton h, hs]

lemma splitOn_append {a : Char} {l m : List Char} (h : a ∉ l) :
    (l ++ m).splitOn a = (m.splitOn a).modifyHead (l ++ ·) := by
  induction l with
  | nil =>
    rw [List.nil_append]
    cases m.splitOn a <;> rfl
  | cons x l ih =>
    rw [List.mem_cons, not_or] at h
    rw [List.cons_append, List.splitOn_cons_eq_if_modifyHead, ih h.2,
      if_neg (by simpa using Ne.symm h.1)]
    cases m.splitOn a <;> rfl

/-- The pieces of a string behind one without a separator. -/
lemma pieces_append_of_notMem {sep : Char} {a b : String} (h : sep ∉ a.toList) :
    ∃ b', pieces sep (a ++ b) = (a ++ b') :: (pieces sep b).tail := by
  obtain ⟨x, l, hl⟩ := List.exists_cons_of_ne_nil (List.splitOn_ne_nil sep b.toList)
  refine ⟨.ofList x, ?_⟩
  rw [pieces, pieces, String.toList_append, splitOn_append h, hl]
  simp [String.ofList_append]

/-- The names of a file name that begins with a string without a separator. -/
lemma names_append {a b : String} (ha : a ≠ "") (h : '/' ∉ a.toList) :
    ∃ b', (file (a ++ b)).names = (a ++ b') :: (pieces '/' b).tail.filter (· ≠ "") := by
  obtain ⟨b', hb⟩ := pieces_append_of_notMem (b := b) h
  exact ⟨b', by simp [file, hb, ha]⟩

lemma proper_of_length {s : String} (h : 2 < s.toList.length) : Proper s := by
  constructor
  · rintro rfl
    simp at h
  · rintro rfl
    simp at h

/-- A path whose name begins with a string is no path whose name does not. -/
lemma file_ne_of_nameStartsWith {start path other : String} (h : NameStartsWith start path)
    (ho : ¬ NameStartsWith start other) : file other ≠ file path := by
  intro heq
  apply ho
  rw [NameStartsWith, heq]
  exact h

/-! ### FilenameUtils -/

/-- The separators of every system. -/
def isSeparator (ch : Char) : Bool := ch == '/' || ch == '\\'

/-- `getBaseName`: the name behind the last separator, up to its last dot. -/
def getBaseName (filename : String) : String :=
  let name := filename.toList.rtakeWhile fun ch => !isSeparator ch
  .ofList (if '.' ∈ name then (name.rdropWhile (· ≠ '.')).dropLast else name)

/-- The base name is what the extension was joined to. -/
lemma getBaseName_join {key extension : String}
    (hk : ∀ ch ∈ key.toList, isSeparator ch = false)
    (he : ∀ ch ∈ extension.toList, isSeparator ch = false ∧ ch ≠ '.') :
    getBaseName (key ++ "." ++ extension) = key := by
  have hlist : (key ++ "." ++ extension).toList = key.toList ++ ['.'] ++ extension.toList := by
    simp
  have hname : (key ++ "." ++ extension).toList.rtakeWhile (fun ch => !isSeparator ch) =
      key.toList ++ ['.'] ++ extension.toList := by
    rw [hlist, List.rtakeWhile_eq_self_iff]
    intro ch hch
    rw [List.mem_append, List.mem_append, List.mem_singleton] at hch
    rcases hch with (hch | rfl) | hch
    · simp [hk ch hch]
    · decide
    · simp [(he ch hch).1]
  have hdrop : (key.toList ++ ['.'] ++ extension.toList).rdropWhile (· ≠ '.') =
      key.toList ++ ['.'] := by
    have hall : ∀ ch ∈ extension.toList.reverse, decide (ch ≠ '.') = true := by
      intro ch hch
      simpa using (he ch (List.mem_reverse.mp hch)).2
    rw [List.rdropWhile, List.reverse_append, List.dropWhile_append_of_pos hall]
    simp
  simp only [getBaseName, hname, hdrop]
  simp

end Logful.Paths
