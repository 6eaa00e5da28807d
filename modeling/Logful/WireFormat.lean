import Logful.ParserReads

/-!
The wire format of a log file, and what the parser does on a file cut off anywhere.

A well-formed record is a structure that carries its bounds; its bytes are the four fields
behind their lengths, and the marks. The parser reads a whole record off the front of any
stream, and on a proper part of one it breaks off the loop, since going on or throwing
there would, by `frame_grows`, repeat itself on the whole record and leave bytes over.
-/

namespace Logful.WireFormat

open Logful.BigEndian Logful.StringUtil Logful.LogFileParser Logful.Outcome
open Logful.ParserReads

/-- A record as it is written: the four fields and, if there is one, the attachment id. -/
structure WireRecord where
  time : Bytes
  tag : Bytes
  msg : Bytes
  layout : Bytes
  attachment : Option Bytes
  time_ge : 8 ≤ time.length
  time_le : time.length ≤ 32767
  tag_le : tag.length ≤ 32767
  msg_le : msg.length ≤ 32767
  layout_ge : 2 ≤ layout.length
  layout_le : layout.length ≤ 32767
  attachment_length : ∀ a ∈ attachment, a.length = 4

/-- A field behind its length. -/
def field (bs : Bytes) : Bytes := put 2 bs.length ++ bs

/-- The end of a record: the mark -100, after the mark 4 and the id of an attachment. -/
def ending : Option Bytes → Bytes
  | none => put 2 (-100)
  | some a => put 2 4 ++ (a ++ put 2 (-100))

def WireRecord.bytes (r : WireRecord) : Bytes :=
  field r.time ++ (field r.tag ++ (field r.msg ++ (field r.layout ++ ending r.attachment)))

/-- The bytes of a list of records. -/
def encode (rs : List WireRecord) : Bytes := rs.flatMap WireRecord.bytes

/-- Both texts of the record decrypt, to something other than the error mark. -/
def WireRecord.Decrypts (c : Ciphers) (m : Mode) (r : WireRecord) : Prop :=
  decryptError (m.decrypt c r.tag) = false ∧ decryptError (m.decrypt c r.msg) = false

/-- What the listener is to be told about a record. -/
def WireRecord.record (c : Ciphers) (m : Mode) (r : WireRecord) : LogRecord where
  timestamp := signed (r.time.take 8)
  tag := (m.decrypt c r.tag).getD ""
  msg := (m.decrypt c r.msg).getD ""
  layoutId := signed (r.layout.take 2)
  attachmentId := (r.attachment.map signed).getD (-1)

/-- The records that lie wholly inside the first `k` bytes. -/
def whole : List WireRecord → ℕ → List WireRecord
  | [], _ => []
  | r :: rs, k => if r.bytes.length ≤ k then r :: whole rs (k - r.bytes.length) else []

/-- The first `k` bytes end where a record ends, or are none. -/
def Boundary (rs : List WireRecord) (k : ℕ) : Prop :=
  ∃ j ≤ rs.length, (encode (rs.take j)).length = k

instance (rs : List WireRecord) (k : ℕ) : Decidable (Boundary rs k) :=
  inferInstanceAs (Decidable (∃ j ≤ rs.length, _))

/-- What the parser calls on its listener. -/
inductive Call
  | output (r : LogRecord)
  | result (successful : Bool)
  deriving DecidableEq

/-- The listener that writes the calls down and does not throw. -/
def recorder : ParserEventListener (List Call) where
  output := fun r calls => (calls ++ [.output r], false)
  result := fun b calls => (calls ++ [.result b], false)

/-! ### A whole record -/

variable {c : Ciphers} {m : Mode}

lemma readTail_ending (a : Option Bytes) (ha : ∀ b ∈ a, b.length = 4)
    (record : ℤ → LogRecord) (rest : Bytes) (f : Bool) :
    (readFully 2 ⟨ending a ++ rest, f⟩ >>= fun p => bytesToShort p.1 >>= fun value =>
      readTail value record p.2) = .ok (some (record ((a.map signed).getD (-1))), ⟨rest, f⟩) := by
  rcases a with _ | a
  · have h1 := readFully_append (length_put 2 (-100)) rest f
    have h2 := bytesToShort_put (n := -100) (by omega) (by omega)
    simp only [ending, h1, ok_bind, h2]
    simp [readTail]
  · have hlen : a.length = 4 := ha a rfl
    have h1 := readFully_append (length_put 2 4) (a ++ (put 2 (-100) ++ rest)) f
    have h2 := bytesToShort_put (n := 4) (by omega) (by omega)
    have h3 := readFully_append hlen (put 2 (-100) ++ rest) f
    have h4 : bytesToInt a = .ok (signed a) := by
      rw [bytesToInt, bytesTo_eq (by omega), List.take_of_length_le (by omega)]
    have h5 := readFully_append (length_put 2 (-100)) rest f
    have h6 := bytesToShort_put (n := -100) (by omega) (by omega)
    simp only [ending, List.append_assoc, h1, ok_bind, h2]
    simp only [readTail, readAttachment, h3, ok_bind, h4, h5, h6]
    simp [pure, Except.pure]

lemma decrypt_eq_some {t : Option String} (h : decryptError t = false) :
    t = some (t.getD "") := by
  cases t with
  | none => simp [decryptError_none] at h
  | some s => rfl

/-- What a turn does behind the four fields of a record. -/
def decode (c : Ciphers) (m : Mode) (time tag msg layout : Bytes) (s : InputStream) :
    Except Exit (Option LogRecord × InputStream) := do
  let timestamp ← bytesToLong time
  let layoutId ← bytesToShort layout
  let (testMark, s) ← readFully 2 s
  let value ← bytesToShort testMark
  match m.decrypt c tag, m.decrypt c msg with
  | some tag, some msg =>
    if decryptError tag || decryptError msg then .error (.stop false)
    else readTail value (fun attachmentId => ⟨timestamp, tag, msg, layoutId, attachmentId⟩) s
  | _, _ => .error (.stop false)

/-- A turn takes the four fields off the front of the stream. -/
lemma frame_fields {time tag msg layout : Bytes} (htime : time.length ≤ 32767)
    (htag : tag.length ≤ 32767) (hmsg : msg.length ≤ 32767) (hlayout : layout.length ≤ 32767)
    (tail : Bytes) (f : Bool) :
    frame c m ⟨field time ++ (field tag ++ (field msg ++ (field layout ++ tail))), f⟩ =
      decode c m time tag msg layout ⟨tail, f⟩ := by
  have h1 := readTimeLength_append (length_put 2 time.length)
    (time ++ (field tag ++ (field msg ++ (field layout ++ tail)))) f
  have h2 := bytesToShort_put (n := time.length) (by omega) (by omega)
  have h3 := readChunk_append time (field tag ++ (field msg ++ (field layout ++ tail))) f
  have h4 := readField_append htag (field msg ++ (field layout ++ tail)) f
  have h5 := readField_append hmsg (field layout ++ tail) f
  have h6 := readField_append hlayout tail f
  rw [← List.append_assoc] at h4 h5 h6
  have hbytes : field time ++ (field tag ++ (field msg ++ (field layout ++ tail))) =
      put 2 time.length ++ (time ++ (field tag ++ (field msg ++ (field layout ++ tail)))) := by
    simp [field]
  rw [hbytes, frame, decode]
  simp only [h1, ok_bind, h2, h3]
  simp only [field] at h4 h5 h6 ⊢
  refine bind_congr fun timestamp => ?_
  rewrite [h4, ok_bind, h5, ok_bind, h6, ok_bind]
  rfl

/-- **A whole record is read.** Whatever follows it on the stream is left there. -/
theorem frame_whole (r : WireRecord) (hr : r.Decrypts c m) (rest : Bytes) (f : Bool) :
    frame c m ⟨r.bytes ++ rest, f⟩ = .ok (some (r.record c m), ⟨rest, f⟩) := by
  obtain ⟨htag, hmsg⟩ := hr
  have htime : bytesToLong r.time = .ok (signed (r.time.take 8)) := bytesTo_eq r.time_ge
  have hlayout : bytesToShort r.layout = .ok (signed (r.layout.take 2)) := bytesTo_eq r.layout_ge
  have htail := readTail_ending r.attachment r.attachment_length (fun attachmentId =>
    ⟨signed (r.time.take 8), (m.decrypt c r.tag).getD "", (m.decrypt c r.msg).getD "",
      signed (r.layout.take 2), attachmentId⟩) rest f
  have hbytes : r.bytes ++ rest = field r.time ++
      (field r.tag ++ (field r.msg ++ (field r.layout ++ (ending r.attachment ++ rest)))) := by
    simp [WireRecord.bytes]
  rw [hbytes, frame_fields r.time_le r.tag_le r.msg_le r.layout_le, decode]
  simp only [htime, hlayout, ok_bind]
  rw [decrypt_eq_some htag, decrypt_eq_some hmsg]
  rw [decrypt_eq_some htag] at htag
  rw [decrypt_eq_some hmsg] at hmsg
  simp only [htag, hmsg]
  exact htail

/-! ### A part of a record -/

lemma frame_nil : frame c m ⟨[], false⟩ = .error (.stop true) := rfl

/-- A proper part of a record breaks off the loop, and is no end of the file unless it is
empty. -/
lemma frame_part (r : WireRecord) (hr : r.Decrypts c m) {p q : Bytes} (hpq : p ++ q = r.bytes)
    (hq : q ≠ []) : frame c m ⟨p, false⟩ = .error (.stop (decide (p = []))) := by
  have hgrow := frame_grows (q := q) (f := false) c m p
  have hwhole := frame_whole r hr [] false
  rw [List.append_nil, ← hpq] at hwhole
  rw [hwhole] at hgrow
  rcases hp : frame c m ⟨p, false⟩ with (b | e) | ⟨a, s⟩
  · cases b with
    | true =>
      have hend := (frame_spec c m ⟨p, false⟩).of_error hp rfl
      rw [decide_eq_true hend.1]
    | false =>
      have hne : p ≠ [] := by
        rintro rfl
        rw [frame_nil] at hp
        simp at hp
      rw [decide_eq_false hne]
  · rw [hp] at hgrow
    simp [Grows] at hgrow
  · rw [hp] at hgrow
    obtain ⟨-, heq⟩ := hgrow
    simp [hq] at heq

/-! ### The loop on a cut file -/

lemma bytes_ne_nil (r : WireRecord) : r.bytes ≠ [] := by
  intro h
  have := congrArg List.length h
  simp [WireRecord.bytes, field] at this

lemma encode_cons (r : WireRecord) (rs : List WireRecord) :
    encode (r :: rs) = r.bytes ++ encode rs := rfl

lemma boundary_zero (rs : List WireRecord) : Boundary rs 0 := ⟨0, Nat.zero_le _, rfl⟩

lemma boundary_cons {r : WireRecord} {rs : List WireRecord} {k : ℕ} (hk : 0 < k) :
    Boundary (r :: rs) k ↔ r.bytes.length ≤ k ∧ Boundary rs (k - r.bytes.length) := by
  constructor
  · rintro ⟨j, hj, rfl⟩
    rcases j with _ | j
    · simp [encode] at hk
    · simp only [List.take_succ_cons, encode_cons, List.length_append]
      exact ⟨by omega, j, by simpa using hj, by omega⟩
  · rintro ⟨hle, j, hj, hlen⟩
    refine ⟨j + 1, by simpa using hj, ?_⟩
    rw [List.take_succ_cons, encode_cons, List.length_append]
    omega

/-- The loop on a cut file: the whole records are output, and it ends as the cut lies. -/
lemma loop_cut (rs : List WireRecord) (hrs : ∀ r ∈ rs, r.Decrypts c m) (k n : ℕ)
    (hk : k ≤ (encode rs).length) (hn : k < n) (calls : List Call) :
    loop (some recorder) c m n calls ⟨(encode rs).take k, false⟩ =
      (calls ++ (whole rs k).map (fun r => Call.output (r.record c m)),
        .exited (.stop (decide (Boundary rs k)))) := by
  induction rs generalizing k n calls with
  | nil =>
    obtain rfl : k = 0 := by simpa [encode] using hk
    obtain ⟨n, rfl⟩ := Nat.exists_eq_succ_of_ne_zero hn.ne'
    rw [List.take_zero, loop_exit frame_nil]
    simp [whole, boundary_zero]
  | cons r rs ih =>
    obtain ⟨n, rfl⟩ := Nat.exists_eq_succ_of_ne_zero (Nat.ne_zero_of_lt hn)
    have hr := hrs r List.mem_cons_self
    have hlen := List.length_pos_iff.mpr (bytes_ne_nil r)
    rw [encode_cons] at hk ⊢
    rcases Nat.lt_or_ge k r.bytes.length with hlt | hge
    · -- the cut falls into the first record
      have hpart := frame_part r hr (List.take_append_drop k r.bytes)
        (by simp only [ne_eq, List.drop_eq_nil_iff]; omega)
      have hnil : r.bytes.take k = [] ↔ Boundary (r :: rs) k := by
        rcases Nat.eq_zero_or_pos k with rfl | hpos
        · simp [boundary_zero]
        · rw [boundary_cons hpos, List.take_eq_nil_iff]
          constructor
          · rintro (h | h)
            · omega
            · exact absurd h (bytes_ne_nil r)
          · intro h
            omega
      rw [List.take_append_of_le_length (by omega)]
      rw [loop_exit hpart]
      simp [whole, hlt.not_ge, hnil]
    · -- the first record is read and the rest is a cut of the rest
      have hwhole := frame_whole r hr ((encode rs).take (k - r.bytes.length)) false
      rw [List.take_append, List.take_of_length_le hge]
      rw [List.length_append] at hk
      have hrest := ih (fun x hx => hrs x (List.mem_cons_of_mem r hx)) (k - r.bytes.length) n
        (by omega) (by omega) (calls ++ [.output (r.record c m)])
      rw [loop_output hwhole rfl, hrest]
      simp [whole, hge, boundary_cons (show 0 < k by omega)]

/-- The whole records are an initial part of the list, and the longest one that fits. -/
theorem whole_eq_take (rs : List WireRecord) (k : ℕ) :
    ∃ j ≤ rs.length, whole rs k = rs.take j ∧ (encode (rs.take j)).length ≤ k ∧
      (j < rs.length → k < (encode (rs.take (j + 1))).length) := by
  induction rs generalizing k with
  | nil => exact ⟨0, le_rfl, rfl, Nat.zero_le _, fun h => absurd h (lt_irrefl 0)⟩
  | cons r rs ih =>
    rcases Nat.lt_or_ge k r.bytes.length with hlt | hge
    · exact ⟨0, Nat.zero_le _, by simp [whole, hlt.not_ge], Nat.zero_le _,
        fun _ => by simpa [encode] using hlt⟩
    · obtain ⟨j, hj, hw, hle, hnext⟩ := ih (k - r.bytes.length)
      refine ⟨j + 1, by simpa using hj, by simp [whole, hge, hw], ?_, fun h => ?_⟩
      · rw [List.take_succ_cons, encode_cons, List.length_append]
        omega
      · have := hnext (by simpa using h)
        rw [List.take_succ_cons, encode_cons, List.length_append]
        omega

/-- **The file format round trip, at every cut.** On the first `k` bytes of a file of
well-formed records the parser outputs exactly the records lying wholly inside them, in
order, and then reports once, success exactly when the cut is a record boundary. -/
theorem parse_take_encode (c : Ciphers) (m : Mode) (rs : List WireRecord)
    (hrs : ∀ r ∈ rs, r.Decrypts c m) (k : ℕ) (hk : k ≤ (encode rs).length) :
    parse (some recorder) c m ⟨(encode rs).take k, false⟩ [] =
      ((whole rs k).map (fun r => Call.output (r.record c m)) ++
        [Call.result (decide (Boundary rs k))], false) := by
  have h := loop_cut rs hrs k (((encode rs).take k).length + 1) hk
    (by rw [List.length_take]; omega) []
  rw [parse]
  simp only [h]
  rfl

/-- A cipher that takes the bytes for the text. -/
def plainCiphers : Ciphers where
  cbc := fun _ data => some (String.ofList (data.map fun b => Char.ofNat b.toNat))
  ecb := fun _ data => some (String.ofList (data.map fun b => Char.ofNat b.toNat))

/-- A file decrypted under a key of its own. -/
def ownKey : Mode := ⟨false, none, some []⟩

/-- A record with the texts `a` and `b`, and no attachment. -/
def plainRecord : WireRecord where
  time := [0, 0, 0, 0, 0, 0, 0, 7]
  tag := [97]
  msg := [98]
  layout := [0, 1]
  attachment := none
  time_ge := by decide
  time_le := by decide
  tag_le := by decide
  msg_le := by decide
  layout_ge := by decide
  layout_le := by decide
  attachment_length := by simp

lemma plainRecord_decrypts : plainRecord.Decrypts plainCiphers ownKey := by
  constructor <;> decide

/-- Two records, cut within the second. -/
theorem parse_take_encode_plainRecord :
    parse (some recorder) plainCiphers ownKey
        ⟨(encode [plainRecord, plainRecord]).take 40, false⟩ [] =
      ([.output ⟨7, "a", "b", 1, -1⟩, .result false], false) := by
  rw [parse_take_encode plainCiphers ownKey [plainRecord, plainRecord]
    (by simp [plainRecord_decrypts]) 40 (by decide)]
  decide

end Logful.WireFormat
