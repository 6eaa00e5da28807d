import Logful.ParserReads

/-!
The parser as a pure scan of the frames of a stream.

The frames of a stream, and the exit behind them, do not depend on the listener. Parsing
delivers the records of the frames one after another, until the listener throws; if it does
not, the loop is left by the exit of the stream.
-/

namespace Logful.ParserFrames

open Logful.BigEndian Logful.StringUtil Logful.LogFileParser Logful.Outcome Logful.ParserReads

variable {σ : Type} {c : Ciphers} {m : Mode}

/-- The frames of at most `n` turns, and how the loop stands behind them. -/
def scan (c : Ciphers) (m : Mode) : ℕ → InputStream → List (Option LogRecord) × Ending
  | 0, _ => ([], .running)
  | n + 1, s =>
    match frame c m s with
    | .error e => ([], .exited e)
    | .ok (r, s') => (r :: (scan c m n s').1, (scan c m n s').2)

/-- The frames of a whole stream. -/
def frames (c : Ciphers) (m : Mode) (s : InputStream) : List (Option LogRecord) × Ending :=
  scan c m (s.bytes.length + 1) s

/-- The records of the frames that have one. -/
def records (c : Ciphers) (m : Mode) (s : InputStream) : List LogRecord :=
  (frames c m s).1.filterMap id

/-- Records delivered in order, up to one on which the listener throws. -/
def deliverAll (l : Option (ParserEventListener σ)) : List LogRecord → σ → σ × Bool
  | [], st => (st, false)
  | r :: rs, st =>
    match deliver l r st with
    | (st', true) => (st', true)
    | (st', false) => deliverAll l rs st'

/-- **The loop is the scan**, with its records delivered one after another. -/
theorem loop_eq_scan (l : Option (ParserEventListener σ)) (n : ℕ) (st : σ) (s : InputStream) :
    loop l c m n st s =
      match deliverAll l ((scan c m n s).1.filterMap id) st with
      | (st', true) => (st', .exited (.raise .listener))
      | (st', false) => (st', (scan c m n s).2) := by
  induction n generalizing st s with
  | zero => rfl
  | succ n ih =>
    rcases hf : frame c m s with e | ⟨_ | r, t⟩
    · rw [loop_exit hf]
      simp [scan, hf, deliverAll]
    · rw [loop_skip hf, ih]
      simp [scan, hf]
    · rcases hd : deliver l r st with ⟨st', _ | _⟩
      · rw [loop_output hf hd, ih]
        simp [scan, hf, deliverAll, hd]
      · rw [loop_throw hf hd]
        simp [scan, hf, deliverAll, hd]

/-- The scan comes to an end on every stream. -/
lemma frames_exited (c : Ciphers) (m : Mode) (s : InputStream) :
    ∃ e, (frames c m s).2 = .exited e := by
  have hloop : ∃ e, (loop (none : Option (ParserEventListener Unit)) c m (s.bytes.length + 1) ()
      s).2 = .exited e := loop_exits (Nat.lt_succ_self s.bytes.length)
  obtain ⟨e, he⟩ := hloop
  have hquiet : ∀ rs : List LogRecord,
      deliverAll (none : Option (ParserEventListener Unit)) rs () = ((), false) := by
    intro rs
    induction rs with
    | nil => rfl
    | cons r rs ih => exact ih
  rw [loop_eq_scan, hquiet] at he
  exact ⟨e, he⟩

/-- What a parse ends with when no delivery throws, and when one does. -/
theorem parse_eq (l : Option (ParserEventListener σ)) (s : InputStream) (st : σ) :
    parse l c m s st =
      match deliverAll l (records c m s) st with
      | (st', true) => report l true st'
      | (st', false) => report l (decide ((frames c m s).2 ≠ .exited (.stop false))) st' := by
  obtain ⟨e, he⟩ := frames_exited c m s
  rw [parse, loop_eq_scan]
  change (match (match deliverAll l (records c m s) st with
    | (st', true) => (st', Ending.exited (.raise .listener))
    | (st', false) => (st', (frames c m s).2)) with
    | (st', .exited (.stop successful)) => report l successful st'
    | (st', .exited (.raise _)) => report l true st'
    | (st', .running) => (st', false)) = _
  rw [he]
  rcases deliverAll l (records c m s) st with ⟨st', _ | _⟩
  · rcases e with (_ | _) | e <;> simp
  · rfl

/-- The one report of a parse, whatever is thrown before. -/
lemma parse_eq_report (l : Option (ParserEventListener σ)) (s : InputStream) (st : σ) :
    parse l c m s st =
      report l ((deliverAll l (records c m s) st).2 ||
        decide ((frames c m s).2 ≠ .exited (.stop false))) (deliverAll l (records c m s) st).1 := by
  rw [parse_eq]
  rcases deliverAll l (records c m s) st with ⟨st', _ | _⟩ <;> rfl

end Logful.ParserFrames
