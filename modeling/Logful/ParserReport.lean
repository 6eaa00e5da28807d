import Logful.WireFormat

/-!
What the parser reports when an exception is raised in its loop.

The `catch` of `parse` swallows the exception and leaves `successful` set, so a broken
parse is reported like a complete one. An exception is raised in a turn when a read or a
conversion throws or when the listener throws on the record of the turn.
-/

namespace Logful.ParserReport

open Logful.BigEndian Logful.StringUtil Logful.LogFileParser Logful.Outcome
open Logful.ParserReads Logful.WireFormat

variable {σ : Type}

/-- An exception is raised in one of the turns from here on. -/
inductive Raises (l : ParserEventListener σ) (c : Ciphers) (m : Mode) :
    σ → InputStream → Prop where
  | reading {st s e} (h : frame c m s = .error (.raise e)) : Raises l c m st s
  | delivering {st s r t} (h : frame c m s = .ok (some r, t)) (hthrow : (l.output r st).2 = true) :
      Raises l c m st s
  | skipped {st s t} (h : frame c m s = .ok (none, t)) (later : Raises l c m st t) :
      Raises l c m st s
  | delivered {st s r t} (h : frame c m s = .ok (some r, t))
      (hquiet : (l.output r st).2 = false) (later : Raises l c m (l.output r st).1 t) :
      Raises l c m st s

/-- The listener with its calls written down. -/
def recording (l : ParserEventListener σ) : ParserEventListener (List Call × σ) where
  output := fun r p => ((p.1 ++ [.output r], (l.output r p.2).1), (l.output r p.2).2)
  result := fun b p => ((p.1 ++ [.result b], (l.result b p.2).1), (l.result b p.2).2)

/-- The calls `parse` makes on a listener. -/
def calls (l : ParserEventListener σ) (c : Ciphers) (m : Mode) (s : InputStream) (st : σ) :
    List Call :=
  (parse (some (recording l)) c m s ([], st)).1.1

/-- One report, after the last output. -/
def ReportedOnce (cs : List Call) (successful : Bool) : Prop :=
  ∃ rs : List LogRecord, cs = rs.map Call.output ++ [Call.result successful]

lemma not_reportedOnce_of {cs : List Call} (h : ReportedOnce cs true) :
    ¬ ReportedOnce cs false := by
  rintro ⟨rs', h'⟩
  obtain ⟨rs, h⟩ := h
  have hlast := congrArg List.getLast? (h.symm.trans h')
  simp at hlast

variable {l : ParserEventListener σ} {c : Ciphers} {m : Mode}

/-- From a turn that raises on, the loop only outputs, and is left by the exception. -/
lemma loop_of_raises {st : σ} {s : InputStream} (h : Raises l c m st s) (n : ℕ)
    (hn : s.bytes.length < n) (cs : List Call) :
    ∃ (rs : List LogRecord) (st' : σ) (e : Raised), loop (some (recording l)) c m n (cs, st) s =
      ((cs ++ rs.map Call.output, st'), .exited (.raise e)) := by
  induction h generalizing n cs with
  | @reading st s e h =>
    obtain ⟨n, rfl⟩ := Nat.exists_eq_succ_of_ne_zero (Nat.ne_zero_of_lt hn)
    refine ⟨[], st, e, ?_⟩
    rw [loop_exit h]
    simp
  | @delivering st s r t h hthrow =>
    obtain ⟨n, rfl⟩ := Nat.exists_eq_succ_of_ne_zero (Nat.ne_zero_of_lt hn)
    have hd : deliver (some (recording l)) r (cs, st) =
        ((cs ++ [.output r], (l.output r st).1), true) := by
      simp [deliver, recording, hthrow]
    exact ⟨[r], (l.output r st).1, .listener, loop_throw h hd⟩
  | skipped h _ ih =>
    obtain ⟨n, rfl⟩ := Nat.exists_eq_succ_of_ne_zero (Nat.ne_zero_of_lt hn)
    have hlen := (frame_spec c m _).of_ok h
    rw [loop_skip h]
    exact ih n (by simp only at hlen; omega) cs
  | @delivered st s r t h hquiet _ ih =>
    obtain ⟨n, rfl⟩ := Nat.exists_eq_succ_of_ne_zero (Nat.ne_zero_of_lt hn)
    have hlen := (frame_spec c m _).of_ok h
    obtain ⟨rs, st', e, hrest⟩ := ih n (by simp only at hlen; omega) (cs ++ [.output r])
    have hd : deliver (some (recording l)) r (cs, st) =
        ((cs ++ [.output r], (l.output r st).1), false) := by
      simp [deliver, recording, hquiet]
    refine ⟨r :: rs, st', e, ?_⟩
    rw [loop_output h hd, hrest]
    simp

/-- **A parse that broke is reported as a success.** Whenever an exception is raised while
records are read or delivered, `result` is called once, after the last output, and with
`true`; so it is never reported as failed. -/
theorem raised_reported_successful (l : ParserEventListener σ) (c : Ciphers) (m : Mode)
    (st : σ) (s : InputStream) (h : Raises l c m st s) :
    ReportedOnce (calls l c m s st) true ∧ ¬ ReportedOnce (calls l c m s st) false := by
  obtain ⟨rs, st', e, hloop⟩ := loop_of_raises h (s.bytes.length + 1) (Nat.lt_succ_self _) []
  have hcalls : calls l c m s st = rs.map Call.output ++ [Call.result true] := by
    rw [calls, parse, hloop]
    simp [report, recording]
  exact ⟨⟨rs, hcalls⟩, not_reportedOnce_of ⟨rs, hcalls⟩⟩

/-- A listener that does nothing. -/
def quiet : ParserEventListener Unit where
  output := fun _ _ => ((), false)
  result := fun _ _ => ((), false)

/-- A file of one record whose compressed data is cut off behind it. -/
def cutOff : InputStream := ⟨plainRecord.bytes, true⟩

lemma cutOff_raises : Raises quiet plainCiphers ownKey () cutOff :=
  .delivered (r := ⟨7, "a", "b", 1, -1⟩) (t := ⟨[], true⟩) (by decide) rfl
    (.reading (e := .ioException) (by decide))

theorem raised_reported_successful_cutOff :
    ReportedOnce (calls quiet plainCiphers ownKey cutOff ()) true ∧
      ¬ ReportedOnce (calls quiet plainCiphers ownKey cutOff ()) false :=
  raised_reported_successful quiet plainCiphers ownKey () cutOff cutOff_raises

/-- A broken parse is not always reported as failed: the file is cut off behind its first
record. -/
theorem not_raised_reported_failed :
    Raises quiet plainCiphers ownKey () cutOff ∧
      calls quiet plainCiphers ownKey cutOff () =
        [.output ⟨7, "a", "b", 1, -1⟩, .result true] ∧
      ¬ ReportedOnce (calls quiet plainCiphers ownKey cutOff ()) false := by
  have hcalls : calls quiet plainCiphers ownKey cutOff () =
      [.output ⟨7, "a", "b", 1, -1⟩, .result true] := by decide
  refine ⟨cutOff_raises, hcalls, not_reportedOnce_of ⟨[⟨7, "a", "b", 1, -1⟩], ?_⟩⟩
  rw [hcalls]
  rfl

end Logful.ParserReport
