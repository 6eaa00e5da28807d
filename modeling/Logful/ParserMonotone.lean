import Logful.ParserFrames
import Logful.ParserReport

/-!
The parser on a stream and on the same stream with more bytes behind it.

As long as a turn on the shorter stream goes on, the turn on the longer one does the same, and
what is left of the two streams differs by the same bytes. So the calls of `output` on the
shorter stream are the first calls on the longer one.
-/

namespace Logful.ParserMonotone

open Logful.BigEndian Logful.StringUtil Logful.LogFileParser Logful.Outcome
open Logful.ParserReads Logful.ParserFrames Logful.ParserReport Logful.WireFormat

variable {σ : Type} {l : ParserEventListener σ} {c : Ciphers} {m : Mode}

/-! ### The calls on a listener that does not throw -/

def delivered : Call → Option LogRecord
  | .output r => some r
  | .result _ => none

/-- The records that `parse` gives to a listener, in their order. -/
def outputs (l : ParserEventListener σ) (c : Ciphers) (m : Mode) (s : InputStream) (st : σ) :
    List LogRecord :=
  (calls l c m s st).filterMap delivered

def Quiet (l : ParserEventListener σ) : Prop := ∀ r st, (l.output r st).2 = false

lemma filterMap_delivered (rs : List LogRecord) :
    (rs.map Call.output).filterMap delivered = rs := by
  rw [List.filterMap_map]
  exact List.filterMap_some

lemma deliverAll_recording (hl : Quiet l) (rs : List LogRecord) (cs : List Call) (st : σ) :
    ∃ st', deliverAll (some (recording l)) rs (cs, st) =
      ((cs ++ rs.map Call.output, st'), false) := by
  induction rs generalizing cs st with
  | nil => exact ⟨st, by simp [deliverAll]⟩
  | cons r rs ih =>
    have hd : deliver (some (recording l)) r (cs, st) =
        ((cs ++ [.output r], (l.output r st).1), false) := by
      simp [deliver, recording, hl r st]
    obtain ⟨st', hrest⟩ := ih (cs ++ [.output r]) (l.output r st).1
    refine ⟨st', ?_⟩
    rw [deliverAll, hd]
    simp only [hrest]
    simp

/-- The calls: the records of the stream, and one report. -/
lemma calls_of_quiet (hl : Quiet l) (s : InputStream) (st : σ) :
    calls l c m s st = (records c m s).map Call.output ++
      [.result (decide ((frames c m s).2 ≠ .exited (.stop false)))] := by
  obtain ⟨st', hdeliver⟩ := deliverAll_recording hl (records c m s) [] st
  rw [calls, parse_eq_report, hdeliver]
  simp [report, recording]

lemma outputs_of_quiet (hl : Quiet l) (s : InputStream) (st : σ) :
    outputs l c m s st = records c m s := by
  rw [outputs, calls_of_quiet hl, List.filterMap_append, filterMap_delivered]
  simp [delivered]

/-! ### Two scans -/

/-- The frames of a stream come first among the frames of a longer one. -/
theorem scan_grows {n k : ℕ} (hn : n ≤ k) (p q : Bytes) (f : Bool) :
    (scan c m n ⟨p, false⟩).1 <+: (scan c m k ⟨p ++ q, f⟩).1 := by
  induction n generalizing k p with
  | zero => exact List.nil_prefix
  | succ n ih =>
    obtain ⟨k, rfl⟩ := Nat.exists_eq_add_of_lt (Nat.lt_of_lt_of_le n.lt_succ_self hn)
    have hgrows := frame_grows (q := q) (f := f) c m p
    rcases hf : frame c m ⟨p, false⟩ with e | ⟨r, t, fails⟩
    · simp [scan, hf]
    · -- the turn stays inside the shorter stream, so the longer one does the same
      rw [hf] at hgrows
      obtain ⟨rfl, hlong⟩ : fails = false ∧
          frame c m ⟨p ++ q, f⟩ = .ok (r, ⟨t ++ q, f⟩) := hgrows
      have hrest := ih (k := n + k) (Nat.le_add_right n k) t
      simp only [scan, hf, hlong]
      exact (List.prefix_cons_inj r).mpr hrest

/-- **More bytes take nothing back.** Whatever the bytes are and however they are decrypted, the
records that a parse gives to a listener which does not throw are the first ones that it gives
when more bytes follow. -/
theorem outputs_prefix (l : ParserEventListener σ) (c : Ciphers) (m : Mode) (st : σ)
    (p q : Bytes) (hl : Quiet l) :
    outputs l c m ⟨p, false⟩ st <+: outputs l c m ⟨p ++ q, false⟩ st := by
  rw [outputs_of_quiet hl, outputs_of_quiet hl]
  refine List.IsPrefix.filterMap id (scan_grows ?_ p q false)
  simp

/-- One record, with the first byte of another one behind it. -/
theorem outputs_prefix_plainRecord :
    outputs quiet plainCiphers ownKey ⟨plainRecord.bytes, false⟩ () <+:
      outputs quiet plainCiphers ownKey ⟨plainRecord.bytes ++ [0], false⟩ () :=
  outputs_prefix quiet plainCiphers ownKey () plainRecord.bytes [0] fun _ _ => rfl

end Logful.ParserMonotone
