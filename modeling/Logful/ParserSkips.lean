import Logful.ParserMonotone

/-!
Frames that the parser passes over.

A frame whose mark is neither -100 nor 4, or whose closing mark is not -100, is read to its end,
gives no record, and leaves the loop running. What a turn does with a frame that lies whole in
the stream is therefore decided by its marks, once its texts are decrypted.
-/

namespace Logful.ParserSkips

open Logful.BigEndian Logful.StringUtil Logful.LogFileParser Logful.Outcome
open Logful.ParserReads Logful.ParserFrames Logful.ParserReport Logful.ParserMonotone
open Logful.WireFormat

variable {σ : Type} {c : Ciphers} {m : Mode}

/-! ### The turns of a parse -/

/-- A turn of the loop: where the stream stands when it begins, the records it gives to the
listener, and how it leaves the loop if it does. -/
structure Turn where
  stream : InputStream
  outputs : List LogRecord
  exit : Option Exit
  deriving DecidableEq

/-- At most `n` turns on a listener that does not throw. -/
def turnsOf (c : Ciphers) (m : Mode) : ℕ → InputStream → List Turn
  | 0, _ => []
  | n + 1, s =>
    match frame c m s with
    | .error e => [⟨s, [], some e⟩]
    | .ok (none, s') => ⟨s, [], none⟩ :: turnsOf c m n s'
    | .ok (some r, s') => ⟨s, [r], none⟩ :: turnsOf c m n s'

def turns (c : Ciphers) (m : Mode) (s : InputStream) : List Turn :=
  turnsOf c m (s.bytes.length + 1) s

lemma outputs_turnsOf (n : ℕ) (s : InputStream) :
    (turnsOf c m n s).flatMap Turn.outputs = (scan c m n s).1.filterMap id := by
  induction n generalizing s with
  | zero => rfl
  | succ n ih => rcases hf : frame c m s with e | ⟨_ | r, t⟩ <;> simp [turnsOf, scan, hf, ih]

/-- The last turn leaves the loop by the exit of the stream, and no other one does. -/
lemma exit_turnsOf (n : ℕ) (s : InputStream) (e : Exit) :
    (∃ t ∈ turnsOf c m n s, t.exit = some e) ↔ (scan c m n s).2 = .exited e := by
  induction n generalizing s with
  | zero => simp [turnsOf, scan]
  | succ n ih => rcases hf : frame c m s with e' | ⟨_ | r, t⟩ <;> simp [turnsOf, scan, hf, ih]

/-- **The calls of a parse are those of its turns**, and one report, which says whether no turn
has left the loop with `successful` cleared. -/
theorem calls_eq_turns (l : ParserEventListener σ) (hl : Quiet l) (s : InputStream) (st : σ) :
    calls l c m s st = ((turns c m s).flatMap Turn.outputs).map Call.output ++
      [.result (decide (¬ ∃ t ∈ turns c m s, t.exit = some (.stop false)))] := by
  have hexit : (∃ t ∈ turns c m s, t.exit = some (.stop false)) ↔
      (frames c m s).2 = .exited (.stop false) := exit_turnsOf _ s _
  have houtputs : (turns c m s).flatMap Turn.outputs = records c m s := outputs_turnsOf _ s
  rw [calls_of_quiet hl, houtputs, decide_eq_decide.mpr (not_congr hexit)]

/-- A turn does what a frame does on its stream. -/
lemma frame_of_mem {n : ℕ} {s : InputStream} {t : Turn} (ht : t ∈ turnsOf c m n s) :
    (∃ e, frame c m t.stream = .error e ∧ t.outputs = [] ∧ t.exit = some e) ∨
      ∃ r s', frame c m t.stream = .ok (r, s') ∧ t.outputs = r.toList ∧ t.exit = none := by
  induction n generalizing s with
  | zero => cases ht
  | succ n ih =>
    rcases hf : frame c m s with e | ⟨_ | r, s'⟩
    · simp only [turnsOf, hf, List.mem_singleton] at ht
      subst ht
      exact .inl ⟨e, hf, rfl, rfl⟩
    · simp only [turnsOf, hf, List.mem_cons] at ht
      rcases ht with rfl | ht
      · exact .inr ⟨none, s', hf, rfl, rfl⟩
      · exact ih ht
    · simp only [turnsOf, hf, List.mem_cons] at ht
      rcases ht with rfl | ht
      · exact .inr ⟨some r, s', hf, rfl, rfl⟩
      · exact ih ht

/-! ### Frames as they lie in the stream -/

/-- The four fields, the mark and, under the mark 4, the attachment id and the closing mark. -/
structure RawFrame where
  time : Bytes
  tag : Bytes
  msg : Bytes
  layout : Bytes
  testMark : Bytes
  attachment : Option (Bytes × Bytes)
  time_le : time.length ≤ 32767
  tag_le : tag.length ≤ 32767
  msg_le : msg.length ≤ 32767
  layout_le : layout.length ≤ 32767
  testMark_length : testMark.length = 2
  attachment_isSome : attachment.isSome ↔ signed testMark = 4
  attachment_length : ∀ a ∈ attachment, a.1.length = 4 ∧ a.2.length = 2

/-- What follows the mark. -/
def RawFrame.rest (f : RawFrame) : Bytes := f.attachment.elim [] fun a => a.1 ++ a.2

def RawFrame.bytes (f : RawFrame) : Bytes :=
  field f.time ++ (field f.tag ++ (field f.msg ++ (field f.layout ++ (f.testMark ++ f.rest))))

/-- Both texts are decrypted. -/
def RawFrame.Decrypts (c : Ciphers) (m : Mode) (f : RawFrame) : Prop :=
  decryptError (m.decrypt c f.tag) = false ∧ decryptError (m.decrypt c f.msg) = false

/-- The mark is -100, or it is 4 and the closing mark is -100. -/
def RawFrame.Marked (f : RawFrame) : Prop :=
  signed f.testMark = -100 ∨ ∃ a ∈ f.attachment, signed a.2 = -100

/-- The listener is told of one record, or the turn makes the parse end with `result(false)`. -/
def Turn.Accounted (t : Turn) : Prop := t.outputs.length = 1 ∨ t.exit = some (.stop false)

lemma bytesTo_take {w : ℕ} {chunk : Bytes} (h : chunk.length = w) :
    bytesTo w chunk = .ok (signed chunk) := by
  rw [bytesTo_eq h.ge, List.take_of_length_le h.le]

lemma bytesTo_error {w : ℕ} {chunk : Bytes} {e : Exit} (h : bytesTo w chunk = .error e) :
    ∃ r, e = .raise r := by
  unfold bytesTo at h
  split at h
  · cases h
  · cases h
    exact ⟨_, rfl⟩

lemma readTail_marked {f : RawFrame} (hf : f.Marked) (record : ℤ → LogRecord) (bs : Bytes)
    (fails : Bool) : ∃ r s', readTail (signed f.testMark) record ⟨f.rest ++ bs, fails⟩ =
      .ok (some r, s') := by
  unfold readTail
  rcases hf with hmark | ⟨a, ha, heof⟩
  · exact ⟨_, _, if_pos hmark⟩
  · obtain ⟨hid, hlen⟩ := f.attachment_length a ha
    have hfour : signed f.testMark = 4 := f.attachment_isSome.mp (Option.isSome_of_mem ha)
    have hrest : f.rest ++ bs = a.1 ++ (a.2 ++ bs) := by
      rw [RawFrame.rest, Option.mem_def.mp ha, Option.elim_some, List.append_assoc]
    rw [if_neg (by rw [hfour]; decide), if_pos hfour, hrest, readAttachment]
    simp only [readFully_append hid, ok_bind, bytesTo_take hid, readFully_append hlen,
      bytesTo_take hlen, heof, if_true]
    exact ⟨_, _, rfl⟩

lemma readTail_unmarked {f : RawFrame} (hf : ¬ f.Marked) (record : ℤ → LogRecord) (bs : Bytes)
    (fails : Bool) : ∃ s', readTail (signed f.testMark) record ⟨f.rest ++ bs, fails⟩ =
      .ok (none, s') := by
  rw [RawFrame.Marked, not_or] at hf
  obtain ⟨hmark, heof⟩ := hf
  unfold readTail
  rw [if_neg hmark]
  cases ha : f.attachment with
  | none =>
    have hfour : ¬ signed f.testMark = 4 := by
      rw [← f.attachment_isSome, ha]
      simp
    exact ⟨_, if_neg hfour⟩
  | some a =>
    obtain ⟨hid, hlen⟩ := f.attachment_length a ha
    have hfour : signed f.testMark = 4 := by
      rw [← f.attachment_isSome, ha]
      rfl
    have hrest : f.rest ++ bs = a.1 ++ (a.2 ++ bs) := by
      rw [RawFrame.rest, ha, Option.elim_some, List.append_assoc]
    have hclosing : signed a.2 ≠ -100 := fun h => heof ⟨a, ha, h⟩
    rw [if_pos hfour, hrest, readAttachment]
    simp only [readFully_append hid, ok_bind, bytesTo_take hid, readFully_append hlen,
      bytesTo_take hlen, hclosing, if_false]
    exact ⟨_, rfl⟩

/-- What a turn does with a frame that lies whole in its stream: it throws on a time or a layout
that is too short; else it ends the loop if a text is not decrypted, gives a record if the frame
is marked as it should be, and passes over the frame if not. -/
theorem frame_raw (f : RawFrame) (bs : Bytes) (fails : Bool) :
    (∃ e, frame c m ⟨f.bytes ++ bs, fails⟩ = .error (.raise e)) ∨
      (¬ f.Decrypts c m ∧ frame c m ⟨f.bytes ++ bs, fails⟩ = .error (.stop false)) ∨
      (f.Decrypts c m ∧ f.Marked ∧ ∃ r s', frame c m ⟨f.bytes ++ bs, fails⟩ = .ok (some r, s')) ∨
      (f.Decrypts c m ∧ ¬ f.Marked ∧ ∃ s', frame c m ⟨f.bytes ++ bs, fails⟩ = .ok (none, s')) := by
  have hbytes : f.bytes ++ bs = field f.time ++ (field f.tag ++ (field f.msg ++ (field f.layout ++
      (f.testMark ++ (f.rest ++ bs))))) := by
    simp [RawFrame.bytes]
  rw [hbytes, frame_fields f.time_le f.tag_le f.msg_le f.layout_le, decode]
  have hmark : bytesToShort f.testMark = .ok (signed f.testMark) := bytesTo_take f.testMark_length
  cases htime : bytesToLong f.time with
  | error e =>
    obtain ⟨r, rfl⟩ := bytesTo_error htime
    exact .inl ⟨r, rfl⟩
  | ok timestamp =>
    cases hlayout : bytesToShort f.layout with
    | error e =>
      obtain ⟨r, rfl⟩ := bytesTo_error hlayout
      exact .inl ⟨r, rfl⟩
    | ok layoutId =>
      refine .inr ?_
      simp only [ok_bind, readFully_append f.testMark_length, hmark]
      unfold RawFrame.Decrypts
      cases htag : m.decrypt c f.tag with
      | none => exact .inl ⟨by simp [decryptError_none], rfl⟩
      | some tag =>
        cases hmsg : m.decrypt c f.msg with
        | none => exact .inl ⟨by simp [decryptError_none], rfl⟩
        | some msg =>
          by_cases herror : (decryptError tag || decryptError msg) = true
          · refine .inl ⟨fun h => ?_, if_pos herror⟩
            rw [h.1, h.2] at herror
            cases herror
          · simp only [if_neg herror]
            rw [Bool.not_eq_true, Bool.or_eq_false_iff] at herror
            by_cases hf : f.Marked
            · exact .inr (.inl ⟨herror, hf, readTail_marked hf _ bs fails⟩)
            · exact .inr (.inr ⟨herror, hf, readTail_unmarked hf _ bs fails⟩)

def Turn.raises (t : Turn) : Bool :=
  match t.exit with
  | some (.raise _) => true
  | _ => false

/-- **Which frames are passed over.** In a parse in which no exception is raised, every turn that
has a whole frame before it accounts for the frame, by one record or by the report of a failure,
exactly when every such frame whose texts are decrypted is marked as it should be. -/
theorem accounted_iff_marked (c : Ciphers) (m : Mode) (s : InputStream)
    (h : ∀ t ∈ turns c m s, t.raises = false) :
    (∀ t ∈ turns c m s, ∀ f : RawFrame, f.bytes <+: t.stream.bytes → t.Accounted) ↔
      ∀ t ∈ turns c m s, ∀ f : RawFrame, f.bytes <+: t.stream.bytes →
        f.Decrypts c m → f.Marked := by
  refine forall₄_congr fun t ht f hf => ?_
  obtain ⟨bs, hbs⟩ := hf
  have hframe := frame_raw (c := c) (m := m) f bs t.stream.fails
  have hstream : (⟨f.bytes ++ bs, t.stream.fails⟩ : InputStream) = t.stream := by rw [hbs]
  rw [hstream] at hframe
  rcases frame_of_mem ht with ⟨e, he, houtputs, hexit⟩ | ⟨r, s', hr, houtputs, hexit⟩
  · -- the turn leaves the loop, so the frame was not decrypted
    rw [he] at hframe
    rcases hframe with ⟨e', heq⟩ | ⟨hnot, heq⟩ | ⟨-, -, r, s', heq⟩ | ⟨-, -, s', heq⟩ <;> cases heq
    · have hraises := h t ht
      simp [Turn.raises, hexit] at hraises
    · exact iff_of_true (.inr hexit) fun hd => absurd hd hnot
  · rw [hr] at hframe
    rcases hframe with ⟨e, heq⟩ | ⟨-, heq⟩ | ⟨hd, hf, r, s', heq⟩ | ⟨hd, hf, s', heq⟩ <;> cases heq
    · exact iff_of_true (.inl (by rw [houtputs]; rfl)) fun _ => hf
    · refine iff_of_false ?_ fun hall => hf (hall hd)
      rintro (hone | hstop)
      · rw [houtputs] at hone
        cases hone
      · rw [hexit] at hstop
        cases hstop

lemma bytes_ne_nil (f : RawFrame) : f.bytes ≠ [] := by
  intro h
  have hlen := congrArg List.length h
  simp [RawFrame.bytes, field] at hlen

/-- The stream of one record. -/
def oneRecord : InputStream := ⟨plainRecord.bytes, false⟩

theorem accounted_iff_marked_oneRecord :
    (∀ t ∈ turns plainCiphers ownKey oneRecord, t.raises = false) ∧
      ∀ t ∈ turns plainCiphers ownKey oneRecord, ∀ f : RawFrame, f.bytes <+: t.stream.bytes →
        f.Decrypts plainCiphers ownKey → f.Marked := by
  have hturns : turns plainCiphers ownKey oneRecord =
      [⟨oneRecord, [⟨7, "a", "b", 1, -1⟩], none⟩, ⟨⟨[], false⟩, [], some (.stop true)⟩] := by
    decide
  have hraises : ∀ t ∈ turns plainCiphers ownKey oneRecord, t.raises = false := by decide
  refine ⟨hraises, (accounted_iff_marked _ _ _ hraises).mp fun t ht f hf => ?_⟩
  rw [hturns] at ht
  rcases List.mem_pair.mp ht with rfl | rfl
  · exact .inl rfl
  · exact absurd (List.prefix_nil.mp hf) (bytes_ne_nil f)

/-- A frame with the mark 7. -/
def strayMark : RawFrame where
  time := plainRecord.time
  tag := plainRecord.tag
  msg := plainRecord.msg
  layout := plainRecord.layout
  testMark := [0, 7]
  attachment := none
  time_le := plainRecord.time_le
  tag_le := plainRecord.tag_le
  msg_le := plainRecord.msg_le
  layout_le := plainRecord.layout_le
  testMark_length := rfl
  attachment_isSome := by decide
  attachment_length := by simp

/-- A frame is passed over in silence: a stream that is one frame with the mark 7 is reported as
parsed, and nothing is output. -/
theorem not_accounted_strayMark :
    (∀ t ∈ turns plainCiphers ownKey ⟨strayMark.bytes, false⟩, t.raises = false) ∧
      calls quiet plainCiphers ownKey ⟨strayMark.bytes, false⟩ () = [.result true] ∧
      ¬ ∀ t ∈ turns plainCiphers ownKey ⟨strayMark.bytes, false⟩, ∀ f : RawFrame,
        f.bytes <+: t.stream.bytes → t.Accounted := by
  have hturns : turns plainCiphers ownKey ⟨strayMark.bytes, false⟩ =
      [⟨⟨strayMark.bytes, false⟩, [], none⟩, ⟨⟨[], false⟩, [], some (.stop true)⟩] := by
    decide
  refine ⟨by decide, by decide, fun h => ?_⟩
  have haccounted := h _ (by rw [hturns]; exact List.mem_cons_self) strayMark List.prefix_rfl
  rcases haccounted with hone | hstop
  · cases hone
  · cases hstop

end Logful.ParserSkips
