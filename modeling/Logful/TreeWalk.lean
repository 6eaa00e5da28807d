import Mathlib.Tactic.Common

/-!
Walks over a tree of files.

A visitor is called before a directory, at a file, at what cannot be visited, and behind a
directory, in the order in which the tree lists its entries. Each call changes a state and says
whether the walk goes on, is terminated, or is left by an exception. A walk is what the visitor
makes of the list of its calls, one after the other, up to the first that does not say to go on.
-/

namespace Logful.TreeWalk

variable {δ φ σ : Type*}

/-- A file, one whose visit fails, or a directory with its entries in the order of the walk. -/
inductive Tree (δ φ : Type*)
  | file (f : φ)
  | failed (f : φ)
  | dir (d : δ) (entries : List (Tree δ φ))

inductive Signal
  | continue
  | terminate
  | throw
  deriving DecidableEq

structure Visitor (δ φ σ : Type*) where
  preVisitDirectory : δ → σ → σ × Signal
  visitFile : φ → σ → σ × Signal
  visitFileFailed : φ → σ → σ × Signal
  postVisitDirectory : δ → σ → σ × Signal

/-- What follows a call, if it says to go on. -/
def andThen (r : σ × Signal) (next : σ → σ × Signal) : σ × Signal :=
  match r with
  | (s, .continue) => next s
  | _ => r

mutual

/-- `walkFileTree`. -/
def walk (v : Visitor δ φ σ) : Tree δ φ → σ → σ × Signal
  | .file f, s => v.visitFile f s
  | .failed f, s => v.visitFileFailed f s
  | .dir d entries, s =>
    andThen (andThen (v.preVisitDirectory d s) (walkAll v entries)) (v.postVisitDirectory d)

def walkAll (v : Visitor δ φ σ) : List (Tree δ φ) → σ → σ × Signal
  | [], s => (s, .continue)
  | t :: l, s => andThen (walk v t s) (walkAll v l)

end

/-! ### The calls of a walk -/

inductive Call (δ φ : Type*)
  | preVisitDirectory (d : δ)
  | visitFile (f : φ)
  | visitFileFailed (f : φ)
  | postVisitDirectory (d : δ)
  deriving DecidableEq

mutual

/-- The calls of a walk that goes on to its end. -/
def calls : Tree δ φ → List (Call δ φ)
  | .file f => [.visitFile f]
  | .failed f => [.visitFileFailed f]
  | .dir d entries => .preVisitDirectory d :: (callsAll entries ++ [.postVisitDirectory d])

def callsAll : List (Tree δ φ) → List (Call δ φ)
  | [] => []
  | t :: l => calls t ++ callsAll l

end

def Visitor.call (v : Visitor δ φ σ) : Call δ φ → σ → σ × Signal
  | .preVisitDirectory d => v.preVisitDirectory d
  | .visitFile f => v.visitFile f
  | .visitFileFailed f => v.visitFileFailed f
  | .postVisitDirectory d => v.postVisitDirectory d

/-- The calls of a list, up to the first that does not say to go on. -/
def run (v : Visitor δ φ σ) : List (Call δ φ) → σ → σ × Signal
  | [], s => (s, .continue)
  | c :: l, s => andThen (v.call c s) (run v l)

@[simp] lemma andThen_continue (s : σ) (next : σ → σ × Signal) :
    andThen (s, .continue) next = next s := rfl

lemma andThen_assoc (r : σ × Signal) (f g : σ → σ × Signal) :
    andThen (andThen r f) g = andThen r fun s => andThen (f s) g := by
  obtain ⟨s, signal⟩ := r
  cases signal <;> rfl

lemma andThen_pure (r : σ × Signal) : andThen r (fun s => (s, .continue)) = r := by
  obtain ⟨s, signal⟩ := r
  cases signal <;> rfl

lemma run_append (v : Visitor δ φ σ) (l m : List (Call δ φ)) (s : σ) :
    run v (l ++ m) s = andThen (run v l s) (run v m) := by
  induction l generalizing s with
  | nil => rfl
  | cons c l ih =>
    have hrest : run v (l ++ m) = fun s => andThen (run v l s) (run v m) := funext ih
    rw [List.cons_append, run, run, andThen_assoc, hrest]

mutual

/-- **A walk is the run of its calls.** -/
theorem walk_eq_run (v : Visitor δ φ σ) : ∀ (t : Tree δ φ) (s : σ), walk v t s = run v (calls t) s
  | .file f, s => (andThen_pure (v.visitFile f s)).symm
  | .failed f, s => (andThen_pure (v.visitFileFailed f s)).symm
  | .dir d entries, s => by
    have hentries : walkAll v entries = run v (callsAll entries) :=
      funext fun s => walkAll_eq_run v entries s
    have hpost : run v [.postVisitDirectory d] = v.postVisitDirectory d :=
      funext fun s => andThen_pure (v.postVisitDirectory d s)
    have hrest : run v (callsAll entries ++ [.postVisitDirectory d]) =
        fun s => andThen (run v (callsAll entries) s) (v.postVisitDirectory d) := by
      rw [← hpost]
      exact funext fun s => run_append v _ _ s
    rw [walk, calls, run, hrest, andThen_assoc, hentries]
    rfl

theorem walkAll_eq_run (v : Visitor δ φ σ) :
    ∀ (l : List (Tree δ φ)) (s : σ), walkAll v l s = run v (callsAll l) s
  | [], _ => rfl
  | t :: l, s => by
    have hrest : walkAll v l = run v (callsAll l) := funext fun s => walkAll_eq_run v l s
    rw [walkAll, callsAll, run_append, walk_eq_run v t s, hrest]

end

end Logful.TreeWalk
