import Logful.Retention
import Logful.TreeWalk

/-!
`ScheduledTasks.clearFiles`, over any tree and in any order of its entries.

A file whose visit fails terminates the walk, and so does the end of the time; a deletion that
fails leaves it by its exception. The clock is read at every call.
-/

namespace Logful.FileSweep

open Logful.Retention Logful.TreeWalk

/-- A file, and whether its deletion fails. -/
structure FileNode where
  path : String
  attrs : FileAttributes
  deleteFails : Bool
  deriving DecidableEq

/-- A directory goes by its path. -/
abbrev FileTree := Tree String FileNode

abbrev FileCall := Call String FileNode

/-- How many calls there were, and the files that were deleted. -/
structure Sweep where
  turn : ℕ
  deleted : List FileNode
  deriving DecidableEq

def MAX_EXEC_MILLISECOND : ℤ := 3600000

/-- What the clock shows at each of the calls. -/
abbrev Clock := ℕ → ℤ

/-- Whether a call ends the walk because of its time. -/
def signal (startExecTime current : ℤ) : Signal :=
  if MAX_EXEC_MILLISECOND ≤ toLong (current - startExecTime) then .terminate else .continue

def Sweep.next (s : Sweep) : Sweep := { s with turn := s.turn + 1 }

/-- The visitor of `clearFiles`. -/
def visitor (clock : Clock) (startExecTime ttl : ℤ) : Visitor String FileNode Sweep where
  preVisitDirectory := fun _ s => (s.next, signal startExecTime (clock s.turn))
  visitFile := fun file s =>
    let current := clock s.turn
    if due ttl current file.attrs then
      if file.deleteFails then (s.next, .throw)
      else
        ({ s.next with deleted := s.deleted ++ [file] }, signal startExecTime current)
    else (s.next, signal startExecTime current)
  visitFileFailed := fun _ s => (s.next, .terminate)
  postVisitDirectory := fun _ s => (s.next, signal startExecTime (clock s.turn))

/-- `clearFiles`, which logs an exception that leaves the walk. -/
def clearFiles (p : ServerProperties) (clock : Clock) (startExecTime : ℤ) (tree : FileTree) :
    Sweep :=
  (walk (visitor clock startExecTime (ttlOf p)) tree ⟨0, []⟩).1

/-! ### What a sweep is for -/

section Calls

variable (clock : Clock) (ttl : ℤ)

/-- A file that is to be deleted at its turn: it does not fail, is regular and not hidden, and old
enough by the clock. -/
def Deletes (n : ℕ) : FileCall → Prop
  | .visitFile file => file.deleteFails = false ∧ due ttl (clock n) file.attrs = true
  | _ => False

/-- A file that stops the walk at its turn: its visit fails, or its deletion, when it comes to
that. -/
def Stops (n : ℕ) : FileCall → Prop
  | .visitFile file => file.deleteFails = true ∧ due ttl (clock n) file.attrs = true
  | .visitFileFailed _ => True
  | _ => False

instance (n : ℕ) : (c : FileCall) → Decidable (Deletes clock ttl n c)
  | .visitFile _ => inferInstanceAs (Decidable (_ ∧ _))
  | .visitFileFailed _ | .preVisitDirectory _ | .postVisitDirectory _ => .isFalse id

instance (n : ℕ) : (c : FileCall) → Decidable (Stops clock ttl n c)
  | .visitFile _ => inferInstanceAs (Decidable (_ ∧ _))
  | .visitFileFailed _ => .isTrue trivial
  | .preVisitDirectory _ | .postVisitDirectory _ => .isFalse id

def fileOf : FileCall → Option FileNode
  | .visitFile file => some file
  | _ => none

/-- The files that are to be deleted, from the `n`-th call on. -/
def dueFiles : List FileCall → ℕ → List FileNode
  | [], _ => []
  | c :: l, n =>
    (if Deletes clock ttl n c then (fileOf c).toList else []) ++ dueFiles l (n + 1)

/-- No file that stops the walk comes before one that is to be deleted. -/
def NoneCutOff (l : List FileCall) (n : ℕ) : Prop :=
  ∀ i j c d, i < j → l[i]? = some c → Stops clock ttl (n + i) c → l[j]? = some d →
    ¬ Deletes clock ttl (n + j) d

end Calls

variable {clock : Clock} {ttl startExecTime : ℤ}

lemma dueFiles_eq_nil_iff {l : List FileCall} {n : ℕ} :
    dueFiles clock ttl l n = [] ↔ ∀ j d, l[j]? = some d → ¬ Deletes clock ttl (n + j) d := by
  induction l generalizing n with
  | nil => simp [dueFiles]
  | cons c l ih =>
    have hhead : (if Deletes clock ttl n c then (fileOf c).toList else []) = [] ↔
        ¬ Deletes clock ttl n c := by
      by_cases hc : Deletes clock ttl n c
      · cases c with
        | visitFile file => simp [hc, fileOf]
        | _ => cases hc
      · simp [hc]
    rw [dueFiles, List.append_eq_nil_iff, hhead, ih]
    constructor
    · rintro ⟨hc, hl⟩ j d hj
      cases j with
      | zero =>
        cases hj
        exact hc
      | succ j =>
        rw [Nat.add_comm j 1, ← Nat.add_assoc]
        exact hl j d hj
    · intro h
      refine ⟨h 0 c rfl, fun j d hj => ?_⟩
      rw [Nat.add_assoc, Nat.add_comm 1 j]
      exact h (j + 1) d hj

/-- The condition for one call more at the front. -/
lemma noneCutOff_cons {c : FileCall} {l : List FileCall} {n : ℕ} :
    NoneCutOff clock ttl (c :: l) n ↔
      (Stops clock ttl n c → dueFiles clock ttl l (n + 1) = []) ∧
        NoneCutOff clock ttl l (n + 1) := by
  have hshift : ∀ j, n + (j + 1) = n + 1 + j := by omega
  constructor
  · intro h
    refine ⟨fun hstop => dueFiles_eq_nil_iff.mpr fun j d hj => ?_,
      fun i j c' d hij hi hstop hj => ?_⟩
    · rw [← hshift]
      exact h 0 (j + 1) c d (by omega) rfl hstop hj
    · rw [← hshift]
      rw [← hshift] at hstop
      exact h (i + 1) (j + 1) c' d (by omega) hi hstop hj
  · rintro ⟨hfirst, hrest⟩ i j c' d hij hi hstop hj
    obtain ⟨j, rfl⟩ := Nat.exists_eq_add_one_of_ne_zero (by omega : j ≠ 0)
    rw [hshift]
    cases i with
    | zero =>
      cases hi
      exact dueFiles_eq_nil_iff.mp (hfirst hstop) j d hj
    | succ i =>
      rw [hshift] at hstop
      exact hrest i j c' d (by omega) hi hstop hj

/-! ### The calls of the visitor -/

/-- A file that stops the walk is not deleted, and nothing is called behind it. -/
lemma call_stops {c : FileCall} {s : Sweep} (h : Stops clock ttl s.turn c)
    (next : Sweep → Sweep × Signal) :
    (andThen ((visitor clock startExecTime ttl).call c s) next).1.deleted = s.deleted := by
  cases c with
  | visitFile file =>
    obtain ⟨hfails, hdue⟩ := h
    simp [Visitor.call, visitor, hdue, hfails, andThen, Sweep.next]
  | visitFileFailed file => rfl
  | preVisitDirectory d => cases h
  | postVisitDirectory d => cases h

/-- Within the time, every other call goes on, and deletes its file if it is to be deleted. -/
lemma call_continues {c : FileCall} {s : Sweep} (h : ¬ Stops clock ttl s.turn c)
    (htime : toLong (clock s.turn - startExecTime) < MAX_EXEC_MILLISECOND) :
    (visitor clock startExecTime ttl).call c s =
      (⟨s.turn + 1, s.deleted ++
        if Deletes clock ttl s.turn c then (fileOf c).toList else []⟩, .continue) := by
  have hsignal : signal startExecTime (clock s.turn) = .continue := if_neg (not_le.mpr htime)
  cases c with
  | visitFile file =>
    cases hdue : due ttl (clock s.turn) file.attrs with
    | false => simp [Visitor.call, visitor, Deletes, hdue, hsignal, Sweep.next]
    | true =>
      have hfails : file.deleteFails = false := by simpa [Stops, hdue] using h
      simp [Visitor.call, visitor, Deletes, hdue, hfails, hsignal, Sweep.next, fileOf]
  | visitFileFailed file => exact absurd trivial h
  | preVisitDirectory d => simp [Visitor.call, visitor, Deletes, hsignal, Sweep.next]
  | postVisitDirectory d => simp [Visitor.call, visitor, Deletes, hsignal, Sweep.next]

/-- Within the time, calls delete all that is to be deleted exactly when none of it is cut off. -/
lemma deleted_run_iff (ttl : ℤ) (l : List FileCall) (s : Sweep)
    (htime : ∀ n < s.turn + l.length,
      toLong (clock n - startExecTime) < MAX_EXEC_MILLISECOND) :
    (run (visitor clock startExecTime ttl) l s).1.deleted =
        s.deleted ++ dueFiles clock ttl l s.turn ↔ NoneCutOff clock ttl l s.turn := by
  induction l generalizing s with
  | nil => simp [run, dueFiles, NoneCutOff]
  | cons c l ih =>
    rw [noneCutOff_cons, run]
    by_cases hstop : Stops clock ttl s.turn c
    · have hnot : ¬ Deletes clock ttl s.turn c := by
        cases c with
        | visitFile file =>
          rintro ⟨hfails, -⟩
          rw [hstop.1] at hfails
          cases hfails
        | _ => exact id
      rw [call_stops hstop, dueFiles, if_neg hnot, List.nil_append, List.self_eq_append_right]
      refine ⟨fun hnil => ⟨fun _ => hnil, ?_⟩, fun h => h.1 hstop⟩
      intro i j c' d _ _ _ hj
      exact dueFiles_eq_nil_iff.mp hnil j d hj
    · have hnow := htime s.turn (by simp)
      rw [call_continues hstop hnow, andThen_continue, dueFiles, ← List.append_assoc,
        and_iff_right fun h => absurd h hstop]
      refine ih ⟨s.turn + 1, _⟩ fun n hn => htime n ?_
      rw [List.length_cons]
      simp only at hn
      omega

/-- **When one bad file does not stop the sweep.** A sweep that stays within its time deletes
exactly the files that are to be deleted, in the order of the walk, if and only if none of them
comes after a file whose visit fails, or whose deletion fails when it is old enough. -/
theorem deleted_iff_noneCutOff (p : ServerProperties) (clock : Clock) (startExecTime : ℤ)
    (tree : FileTree)
    (htime : ∀ n < (calls tree).length,
      toLong (clock n - startExecTime) < MAX_EXEC_MILLISECOND) :
    (clearFiles p clock startExecTime tree).deleted = dueFiles clock (ttlOf p) (calls tree) 0 ↔
      NoneCutOff clock (ttlOf p) (calls tree) 0 := by
  have hrun := deleted_run_iff (ttlOf p) (calls tree) ⟨0, []⟩ (by simpa using htime)
  rw [clearFiles, walk_eq_run]
  simpa using hrun

/-! ### Concrete trees -/

/-- A clock that stands still. -/
def standing : Clock := fun _ => 1500000000000

lemma standing_inTime (n : ℕ) : toLong (standing n - 1500000000000) < MAX_EXEC_MILLISECOND := by
  change toLong (1500000000000 - 1500000000000) < MAX_EXEC_MILLISECOND
  decide

def twoDays : ServerProperties := ⟨172800, some "2d"⟩

def fileAt (path : String) (creationTime : ℤ) (deleteFails : Bool) : FileNode :=
  ⟨path, createdAt creationTime, deleteFails⟩

/-- A file that is older than two days. -/
def oldFile : FileNode := fileAt "/data/weed/a.txt" 1499800000000 false

/-- A file that is not, and an old one behind it. -/
def youngAndOld : FileTree :=
  .dir "/data/weed" [.file (fileAt "/data/weed/b.txt" 1499900000000 false), .file oldFile]

theorem deleted_iff_noneCutOff_youngAndOld :
    (clearFiles twoDays standing 1500000000000 youngAndOld).deleted = [oldFile] := by
  refine ((deleted_iff_noneCutOff twoDays standing 1500000000000 youngAndOld fun n _ =>
    standing_inTime n).mpr ?_).trans (by decide)
  intro i j c d _ hi hstop
  have hc : c ∈ calls youngAndOld := List.mem_of_getElem? hi
  simp only [youngAndOld, calls, callsAll, List.append_nil, List.nil_append, List.cons_append,
    List.mem_cons, List.not_mem_nil, or_false] at hc
  rcases hc with rfl | rfl | rfl | rfl
  · cases hstop
  · cases hstop.1
  · cases hstop.1
  · cases hstop

/-- A file that is gone when it is visited, and the old one behind it. -/
def goneAndOld : FileTree :=
  .dir "/data/weed" [.failed (fileAt "/data/weed/b.txt" 1499900000000 false), .file oldFile]

/-- An old file that cannot be deleted, and another one behind it. -/
def lockedAndOld : FileTree :=
  .dir "/data/weed" [.file (fileAt "/data/weed/b.txt" 1499800000000 true), .file oldFile]

/-- A file that is gone when it is visited stops a sweep before it comes to an old file, and so
does one that cannot be deleted. -/
theorem not_deleted_goneAndOld :
    (clearFiles twoDays standing 1500000000000 goneAndOld).deleted = [] ∧
      (clearFiles twoDays standing 1500000000000 lockedAndOld).deleted = [] ∧
      ¬ ∀ p clock startExecTime tree, (∀ n < (calls tree).length,
          toLong (clock n - startExecTime) < MAX_EXEC_MILLISECOND) →
        (clearFiles p clock startExecTime tree).deleted =
          dueFiles clock (ttlOf p) (calls tree) 0 := by
  have hgone : (clearFiles twoDays standing 1500000000000 goneAndOld).deleted = [] := by decide
  refine ⟨hgone, by decide, fun h => ?_⟩
  have hall := h twoDays standing 1500000000000 goneAndOld fun n _ => standing_inTime n
  rw [hgone] at hall
  exact absurd hall (by decide)

end Logful.FileSweep
