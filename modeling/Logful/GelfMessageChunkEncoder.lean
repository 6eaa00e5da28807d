import Logful.BigEndian
import Logful.Reassembly
import Mathlib.Data.Int.ModEq

/-!
`GelfMessageChunkEncoder`, which sends a large message as numbered datagrams, and a receiver
that goes by their headers.

Exceptions of the buffers are left out. The random machine identifier and the clock are
arguments.
-/

namespace Logful.GelfMessageChunkEncoder

open Logful.BigEndian Logful.Reassembly

def MAX_CHUNKS : ℕ := 128

def MAX_CHUNK_SIZE : ℕ := 1420

def MAX_MESSAGE_SIZE : ℕ := MAX_CHUNKS * MAX_CHUNK_SIZE

def CHUNK_MAGIC_BYTES : Bytes := [0x1e, 0x0f]

lemma chunk_size_pos : 0 < MAX_CHUNK_SIZE := Nat.succ_pos _

/-! ### The encoder -/

structure Encoder where
  machineIdentifier : Bytes
  length : machineIdentifier.length = 4

/-- The constructor, which uses the first four bytes, or the text of its exception. -/
def create (machineIdentifier : Bytes) : Except String Encoder :=
  if h : machineIdentifier.length < 4 then
    .error "The machine identifier must at least be 4 bytes long."
  else .ok ⟨machineIdentifier.take 4, by simp; omega⟩

structure Chunker where
  sequenceCount : UInt8
  sequenceNumber : ℕ
  messageId : Bytes

/-- Four bytes of the current time, and the machine identifier. -/
def generateMessageId (e : Encoder) (currentTimeMillis : ℤ) : Bytes :=
  put 4 currentTimeMillis ++ e.machineIdentifier

def Chunker.new (e : Encoder) (currentTimeMillis : ℤ) (messageSize : ℕ) : Chunker where
  sequenceCount :=
    let sequenceCount := messageSize / MAX_CHUNK_SIZE
    .ofNat (if messageSize % MAX_CHUNK_SIZE ≠ 0 then sequenceCount + 1 else sequenceCount)
  sequenceNumber := 0
  messageId := generateMessageId e currentTimeMillis

def Chunker.nextChunk (c : Chunker) (chunk : Bytes) : Bytes × Chunker :=
  (CHUNK_MAGIC_BYTES ++ c.messageId ++ [.ofNat c.sequenceNumber] ++ [c.sequenceCount] ++ chunk,
    { c with sequenceNumber := c.sequenceNumber + 1 })

/-- The loop of `encode`: a slice of the buffer is read and becomes the next chunk. -/
def chunks (c : Chunker) (buf : Bytes) : List Bytes :=
  if buf.length > 0 then
    let length := if buf.length ≥ MAX_CHUNK_SIZE then MAX_CHUNK_SIZE else buf.length
    let (chunk, c) := c.nextChunk (buf.take length)
    chunk :: chunks c (buf.drop length)
  else []
termination_by buf.length
decreasing_by
  have := chunk_size_pos
  simp only [List.length_drop]
  split_ifs <;> omega

/-- `encode`: the datagrams, or the message of the `EncoderException`. -/
def encode (e : Encoder) (currentTimeMillis : ℤ) (buf : Bytes) : Except String (List Bytes) :=
  if buf.length > MAX_MESSAGE_SIZE then
    .error ("Message too big. " ++ toString buf.length ++ " bytes (max " ++
      toString MAX_MESSAGE_SIZE ++ ")")
  else if buf.length ≤ MAX_CHUNK_SIZE then .ok [buf]
  else .ok (chunks (.new e currentTimeMillis buf.length) buf)

/-! ### The chunks of a message -/

/-- The bytes of a part. -/
def datagram (p : Part Bytes UInt8) : Bytes :=
  CHUNK_MAGIC_BYTES ++ p.id ++ [.ofNat p.number] ++ [.ofNat p.count] ++ p.data

lemma take_slice (buf : Bytes) :
    buf.take (if buf.length ≥ MAX_CHUNK_SIZE then MAX_CHUNK_SIZE else buf.length) =
        buf.take MAX_CHUNK_SIZE ∧
      buf.drop (if buf.length ≥ MAX_CHUNK_SIZE then MAX_CHUNK_SIZE else buf.length) =
        buf.drop MAX_CHUNK_SIZE := by
  split_ifs with h
  · exact ⟨rfl, rfl⟩
  · constructor
    · rw [List.take_length, List.take_of_length_le (by omega)]
    · rw [List.drop_length, List.drop_eq_nil_of_le (by omega)]

/-- What the loop sends are the pieces of the buffer, numbered from the sequence number on. -/
lemma chunks_eq (count k : ℕ) (messageId buf : Bytes) :
    chunks ⟨.ofNat count, k, messageId⟩ buf =
      (partsFrom messageId count k (cut MAX_CHUNK_SIZE chunk_size_pos buf)).map datagram := by
  induction hl : buf.length using Nat.strong_induction_on generalizing k buf with
  | _ n ih =>
    obtain ⟨htake, hdrop⟩ := take_slice buf
    rw [chunks]
    by_cases h : buf.length > 0
    · have hne : buf ≠ [] := List.ne_nil_of_length_pos h
      have hlt : (buf.drop MAX_CHUNK_SIZE).length < n := by
        have := chunk_size_pos
        simp only [List.length_drop]
        omega
      rw [if_pos h, cut_of_ne_nil hne, partsFrom, List.map_cons, ← ih _ hlt (k + 1) _ rfl]
      simp only [Chunker.nextChunk, htake, hdrop]
      rfl
    · have hnil : buf = [] := List.eq_nil_of_length_eq_zero (by omega)
      rw [if_neg h, hnil, cut_nil]
      rfl

/-- The parts of a message that is chunked. -/
def partsOf (e : Encoder) (currentTimeMillis : ℤ) (buf : Bytes) : List (Part Bytes UInt8) :=
  parts (generateMessageId e currentTimeMillis) (cut MAX_CHUNK_SIZE chunk_size_pos buf)

/-- What is sent for a message: itself, or the datagrams of its parts. -/
lemma encode_eq_ok {e : Encoder} {t : ℤ} {buf : Bytes} {out : List Bytes} :
    encode e t buf = .ok out ↔
      (buf.length ≤ MAX_CHUNK_SIZE ∧ out = [buf]) ∨
      (MAX_CHUNK_SIZE < buf.length ∧ buf.length ≤ MAX_MESSAGE_SIZE ∧
        out = (partsOf e t buf).map datagram) := by
  have hmax : MAX_CHUNK_SIZE ≤ MAX_MESSAGE_SIZE := by decide
  have hcount : (if buf.length % MAX_CHUNK_SIZE ≠ 0 then buf.length / MAX_CHUNK_SIZE + 1
      else buf.length / MAX_CHUNK_SIZE) = (cut MAX_CHUNK_SIZE chunk_size_pos buf).length := by
    rw [length_cut]
    split_ifs <;> first | contradiction | rfl
  have hchunks : chunks (.new e t buf.length) buf = (partsOf e t buf).map datagram := by
    rw [partsOf, parts, ← chunks_eq, ← hcount]
    rfl
  unfold encode
  rw [hchunks]
  split_ifs with htoo hsmall
  · constructor
    · intro h
      cases h
    · rintro (⟨h, -⟩ | ⟨-, h, -⟩) <;> omega
  · constructor
    · intro h
      cases h
      exact .inl ⟨hsmall, rfl⟩
    · rintro (⟨-, rfl⟩ | ⟨h, -⟩)
      · rfl
      · omega
  · constructor
    · intro h
      cases h
      exact .inr ⟨by omega, by omega, rfl⟩
    · rintro (⟨h, -⟩ | ⟨-, -, rfl⟩)
      · omega
      · rfl

lemma length_messageId (e : Encoder) (t : ℤ) : (generateMessageId e t).length = 8 := by
  simp [generateMessageId, e.length]

lemma length_partsOf (e : Encoder) (t : ℤ) (buf : Bytes) :
    (partsOf e t buf).length = (cut MAX_CHUNK_SIZE chunk_size_pos buf).length :=
  length_partsFrom ..

lemma length_cut_le {buf : Bytes} (h : buf.length ≤ MAX_MESSAGE_SIZE) :
    (cut MAX_CHUNK_SIZE chunk_size_pos buf).length ≤ MAX_CHUNKS := by
  rw [length_cut]
  split_ifs with hmod
  · simp only [MAX_MESSAGE_SIZE, MAX_CHUNKS, MAX_CHUNK_SIZE] at h ⊢
    omega
  · simp only [MAX_MESSAGE_SIZE, MAX_CHUNKS, MAX_CHUNK_SIZE] at h hmod ⊢
    omega

/-- **The limits of the protocol.** A message is refused exactly when it is longer than
`MAX_MESSAGE_SIZE`, and otherwise sent in at most `MAX_CHUNKS` datagrams of at most twelve bytes
more than `MAX_CHUNK_SIZE`. -/
theorem encode_within (e : Encoder) (currentTimeMillis : ℤ) (buf : Bytes) :
    ((∃ message, encode e currentTimeMillis buf = .error message) ↔
        MAX_MESSAGE_SIZE < buf.length) ∧
      ∀ out, encode e currentTimeMillis buf = .ok out →
        out.length ≤ MAX_CHUNKS ∧ ∀ d ∈ out, d.length ≤ MAX_CHUNK_SIZE + 12 := by
  constructor
  · unfold encode
    split_ifs with htoo hsmall
    · exact ⟨fun _ => htoo, fun _ => ⟨_, rfl⟩⟩
    · refine ⟨?_, fun h => absurd h htoo⟩
      rintro ⟨_, h⟩
      cases h
    · refine ⟨?_, fun h => absurd h htoo⟩
      rintro ⟨_, h⟩
      cases h
  · intro out hout
    rcases encode_eq_ok.mp hout with ⟨hsmall, rfl⟩ | ⟨-, hmax, rfl⟩
    · refine ⟨Nat.succ_le_succ (Nat.zero_le _), fun d hd => ?_⟩
      rw [List.mem_singleton.mp hd]
      omega
    · constructor
      · rw [List.length_map, length_partsOf]
        exact length_cut_le hmax
      · intro d hd
        obtain ⟨p, hp, rfl⟩ := List.mem_map.mp hd
        obtain ⟨i, piece, hi, rfl⟩ := mem_parts.mp hp
        have hpiece := (length_of_mem_cut (List.mem_of_getElem? hi)).2
        simp only [datagram, CHUNK_MAGIC_BYTES, List.length_append, List.length_cons,
          List.length_nil, length_messageId]
        omega

/-! ### The receiver -/

/-- The part that a datagram is, by the two bytes it begins with. -/
def readChunk (d : Bytes) : Option (Part Bytes UInt8) :=
  if CHUNK_MAGIC_BYTES <+: d then
    match d.drop 10 with
    | number :: count :: data => some ⟨(d.drop 2).take 8, number.toNat, count.toNat, data⟩
    | _ => none
  else none

/-- The messages that can be had of the datagrams that have come. -/
def Received (ds : List Bytes) (m : Bytes) : Prop :=
  (m ∈ ds ∧ ¬ CHUNK_MAGIC_BYTES <+: m) ∨ ∃ id, assemble (ds.filterMap readChunk) id = some m

/-- A datagram is read as the part it was made of. -/
lemma readChunk_datagram {p : Part Bytes UInt8} (hid : p.id.length = 8) (hnumber : p.number < 256)
    (hcount : p.count < 256) : readChunk (datagram p) = some p := by
  have hpre : CHUNK_MAGIC_BYTES <+: datagram p :=
    ⟨p.id ++ [.ofNat p.number] ++ [.ofNat p.count] ++ p.data, by simp [datagram]⟩
  have hdrop : (datagram p).drop 2 =
      p.id ++ (.ofNat p.number :: .ofNat p.count :: p.data) := by
    simp [datagram, CHUNK_MAGIC_BYTES]
  have hdata : (datagram p).drop 10 = .ofNat p.number :: .ofNat p.count :: p.data := by
    rw [← List.drop_drop (i := 8) (j := 2), hdrop, ← hid, List.drop_left]
  have hkey : ((datagram p).drop 2).take 8 = p.id := by
    rw [hdrop, ← hid, List.take_left]
  rw [readChunk, if_pos hpre, hdata]
  simp only [hkey, UInt8.toNat_ofNat', Nat.mod_eq_of_lt hnumber, Nat.mod_eq_of_lt hcount]

/-- Two messages have the same id when the time that is left in four bytes is the same. -/
lemma messageId_eq_iff (e : Encoder) (t t' : ℤ) :
    generateMessageId e t = generateMessageId e t' ↔ t ≡ t' [ZMOD 2 ^ 32] := by
  have hput : put 4 t = put 4 t' ↔ t ≡ t' [ZMOD 2 ^ 32] := by
    constructor
    · intro h
      have hu := congrArg (fun bs => (unsigned bs : ℤ)) h
      simp only [unsigned_put] at hu
      norm_num at hu
      exact hu
    · intro h
      simp only [Int.ModEq] at h
      simp only [put]
      have h0 : t % 256 = t' % 256 := by omega
      have h1 : t / 256 % 256 = t' / 256 % 256 := by omega
      have h2 : t / 256 / 256 % 256 = t' / 256 / 256 % 256 := by omega
      have h3 : t / 256 / 256 / 256 % 256 = t' / 256 / 256 / 256 % 256 := by omega
      rw [h0, h1, h2, h3]
  rw [generateMessageId, generateMessageId, List.append_left_inj, hput]

/-! ### Many messages -/

/-- What is sent for messages, each with the time at which it is encoded. -/
def sent (e : Encoder) (messages : List (ℤ × Bytes)) : List Bytes :=
  messages.flatMap fun x => (encode e x.1 x.2).toOption.getD []

/-- The large ones are encoded at times that four bytes tell apart. -/
def TimesApart (messages : List (ℤ × Bytes)) : Prop :=
  messages.Pairwise fun x y => MAX_CHUNK_SIZE < x.2.length → MAX_CHUNK_SIZE < y.2.length →
    ¬ x.1 ≡ y.1 [ZMOD 2 ^ 32]

/-- The pieces that are sent under an id. -/
def SentAs (e : Encoder) (messages : List (ℤ × Bytes)) (id : Bytes) (pieces : List Bytes) : Prop :=
  ∃ x ∈ messages, MAX_CHUNK_SIZE < x.2.length ∧ x.2.length ≤ MAX_MESSAGE_SIZE ∧
    id = generateMessageId e x.1 ∧ pieces = cut MAX_CHUNK_SIZE chunk_size_pos x.2

variable {e : Encoder} {messages : List (ℤ × Bytes)}

lemma distinct_sentAs (h : TimesApart messages) : Distinct (SentAs e messages) := by
  refine ⟨fun {id pieces pieces'} hx hy => ?_⟩
  obtain ⟨x, hx, hlarge, -, rfl, rfl⟩ := hx
  obtain ⟨y, hy, hlarge', -, hid, rfl⟩ := hy
  by_cases hxy : x = y
  · rw [hxy]
  · have hsymm : Std.Symm fun x y : ℤ × Bytes => MAX_CHUNK_SIZE < x.2.length →
        MAX_CHUNK_SIZE < y.2.length → ¬ x.1 ≡ y.1 [ZMOD 2 ^ 32] :=
      ⟨fun a b hab hb ha hmod => hab ha hb hmod.symm⟩
    exact absurd ((messageId_eq_iff e x.1 y.1).mp hid)
      (h.forall hx hy hxy hlarge hlarge')

/-- A datagram that is sent is a small message, or it is read as a part of a large one. -/
lemma mem_sent {d : Bytes} (h : d ∈ sent e messages) :
    (∃ x ∈ messages, x.2.length ≤ MAX_CHUNK_SIZE ∧ d = x.2) ∨
      ∃ p pieces, SentAs e messages p.id pieces ∧ p ∈ parts p.id pieces ∧ d = datagram p ∧
        readChunk d = some p := by
  obtain ⟨x, hx, hd⟩ := List.mem_flatMap.mp h
  cases hout : encode e x.1 x.2 with
  | error _ => simp [hout, Except.toOption] at hd
  | ok out =>
    simp only [hout, Except.toOption, Option.getD_some] at hd
    rcases encode_eq_ok.mp hout with ⟨hsmall, rfl⟩ | ⟨hlarge, hmax, rfl⟩
    · exact .inl ⟨x, hx, hsmall, List.mem_singleton.mp hd⟩
    · obtain ⟨p, hp, rfl⟩ := List.mem_map.mp hd
      obtain ⟨i, piece, hi, rfl⟩ := mem_parts.mp hp
      have hlt := (List.getElem?_eq_some_iff.mp hi).1
      have hle := length_cut_le hmax
      have hchunks : MAX_CHUNKS = 128 := rfl
      exact .inr ⟨_, _, ⟨x, hx, hlarge, hmax, rfl, rfl⟩, hp, rfl,
        readChunk_datagram (length_messageId e x.1) (by simp only; omega) (by simp only; omega)⟩

/-- **Any order, more than once, or not at all.** Of datagrams that were sent for some messages,
none of which begins like a chunk, the receiver has exactly the messages all of whose datagrams
have come. -/
theorem received_iff (e : Encoder) (messages : List (ℤ × Bytes))
    (hplain : ∀ x ∈ messages, ¬ CHUNK_MAGIC_BYTES <+: x.2) (happart : TimesApart messages)
    (ds : List Bytes) (hds : ∀ d ∈ ds, d ∈ sent e messages) (m : Bytes) :
    Received ds m ↔ ∃ x ∈ messages, m = x.2 ∧
      ∃ out, encode e x.1 x.2 = .ok out ∧ ∀ d ∈ out, d ∈ ds := by
  have hparts : ∀ p ∈ ds.filterMap readChunk, ∃ pieces, SentAs e messages p.id pieces ∧
      p ∈ parts p.id pieces ∧ datagram p ∈ ds := by
    intro p hp
    obtain ⟨d, hd, hread⟩ := List.mem_filterMap.mp hp
    rcases mem_sent (hds d hd) with ⟨x, hx, -, rfl⟩ | ⟨q, pieces, hs, hq, rfl, hread'⟩
    · rw [readChunk, if_neg (hplain x hx)] at hread
      cases hread
    · rw [hread', Option.some_inj] at hread
      subst hread
      exact ⟨pieces, hs, hq, hd⟩
  have hassemble : ∀ id, assemble (ds.filterMap readChunk) id = some m ↔
      ∃ pieces, SentAs e messages id pieces ∧ pieces ≠ [] ∧
        (∀ p ∈ parts id pieces, p ∈ ds.filterMap readChunk) ∧ m = pieces.flatten :=
    fun id => assemble_eq_some_iff (distinct_sentAs happart)
      fun p hp => let ⟨pieces, hs, hmem, _⟩ := hparts p hp; ⟨pieces, hs, hmem⟩
  constructor
  · rintro (⟨hm, hmagic⟩ | ⟨id, hid⟩)
    · rcases mem_sent (hds m hm) with ⟨x, hx, hsmall, rfl⟩ | ⟨p, pieces, -, -, rfl, -⟩
      · exact ⟨x, hx, rfl, [x.2], encode_eq_ok.mpr (.inl ⟨hsmall, rfl⟩),
          fun d hd => List.mem_singleton.mp hd ▸ hm⟩
      · exact absurd ⟨_, by simp [datagram]; rfl⟩ hmagic
    · obtain ⟨pieces, ⟨x, hx, hlarge, hmax, rfl, rfl⟩, -, hall, rfl⟩ := (hassemble id).mp hid
      refine ⟨x, hx, flatten_cut x.2, _, encode_eq_ok.mpr (.inr ⟨hlarge, hmax, rfl⟩), ?_⟩
      intro d hd
      obtain ⟨p, hp, rfl⟩ := List.mem_map.mp hd
      obtain ⟨-, -, -, hmem⟩ := hparts p (hall p hp)
      exact hmem
  · rintro ⟨x, hx, rfl, out, hout, hall⟩
    rcases encode_eq_ok.mp hout with ⟨-, rfl⟩ | ⟨hlarge, hmax, rfl⟩
    · exact .inl ⟨hall x.2 (List.mem_singleton_self _), hplain x hx⟩
    · have hne : cut MAX_CHUNK_SIZE chunk_size_pos x.2 ≠ [] := by
        have hne : x.2 ≠ [] := List.ne_nil_of_length_pos (by omega)
        rw [cut_of_ne_nil hne]
        exact List.cons_ne_nil _ _
      refine .inr ⟨generateMessageId e x.1, (hassemble _).mpr
        ⟨_, ⟨x, hx, hlarge, hmax, rfl, rfl⟩, hne, fun p hp => ?_, (flatten_cut x.2).symm⟩⟩
      have hd : datagram p ∈ ds := hall _ (List.mem_map.mpr ⟨p, hp, rfl⟩)
      obtain ⟨i, piece, hi, rfl⟩ := mem_parts.mp hp
      have hlt := (List.getElem?_eq_some_iff.mp hi).1
      have hle := length_cut_le hmax
      have hchunks : MAX_CHUNKS = 128 := rfl
      exact List.mem_filterMap.mpr ⟨_, hd, readChunk_datagram (length_messageId e x.1)
        (by simp only; omega) (by simp only; omega)⟩

/-- A message of two chunks. -/
def twoChunks (b : UInt8) : Bytes := List.replicate 1421 b

def encoderA : Encoder := ⟨[1, 2, 3, 4], rfl⟩

lemma encode_twoChunks (t : ℤ) (b : UInt8) :
    encode encoderA t (twoChunks b) = .ok ((partsOf encoderA t (twoChunks b)).map datagram) := by
  refine encode_eq_ok.mpr (.inr ⟨?_, ?_, rfl⟩) <;>
    simp only [twoChunks, List.length_replicate] <;> decide

/-- Two messages that come back to front, with a datagram too many. -/
theorem received_iff_backToFront :
    ∃ d ∈ sent encoderA [(0, [5]), (1, twoChunks 1)],
      Received (d :: (sent encoderA [(0, [5]), (1, twoChunks 1)]).reverse) (twoChunks 1) := by
  have hsent : sent encoderA [(0, [5]), (1, twoChunks 1)] =
      [5] :: (partsOf encoderA 1 (twoChunks 1)).map datagram := by
    have h5 : encode encoderA 0 [5] = .ok [[5]] := rfl
    simp [sent, h5, encode_twoChunks, Except.toOption]
  refine ⟨[5], by rw [hsent]; exact List.mem_cons_self, ?_⟩
  refine (received_iff encoderA [(0, [5]), (1, twoChunks 1)] ?_ ?_ _ ?_ _).mpr
    ⟨_, List.mem_cons_of_mem _ (List.mem_singleton_self _), rfl, _, encode_twoChunks 1 1, ?_⟩
  · intro x hx
    rcases List.mem_cons.mp hx with rfl | hx
    · decide
    · rw [List.mem_singleton.mp hx]
      rintro ⟨rest, hrest⟩
      have hhead := congrArg List.head? hrest
      simp [twoChunks, CHUNK_MAGIC_BYTES] at hhead
  · refine List.pairwise_pair.mpr fun h => ?_
    exact absurd h (by decide)
  · intro d hd
    rcases List.mem_cons.mp hd with rfl | hd
    · rw [hsent]
      exact List.mem_cons_self
    · exact List.mem_reverse.mp hd
  · intro d hd
    refine List.mem_cons_of_mem _ (List.mem_reverse.mpr ?_)
    rw [hsent]
    exact List.mem_cons_of_mem _ hd

/-! ### The same time -/

/-- The header of a datagram: what stands before its piece of the message. -/
def header (d : Bytes) : Bytes := d.take 12

lemma header_datagram {p : Part Bytes UInt8} (hid : p.id.length = 8) :
    header (datagram p) =
      CHUNK_MAGIC_BYTES ++ p.id ++ [UInt8.ofNat p.number] ++ [UInt8.ofNat p.count] := by
  have hlen : (CHUNK_MAGIC_BYTES ++ p.id ++ [UInt8.ofNat p.number] ++
      [UInt8.ofNat p.count]).length = 12 := by
    simp [CHUNK_MAGIC_BYTES, hid]
  rw [header, datagram, List.take_left' hlen]

/-- The headers of pieces numbered from `k` on depend on how many there are. -/
lemma headers_partsFrom {id : Bytes} (hid : id.length = 8) (count k : ℕ) (pieces : List Bytes) :
    ((partsFrom id count k pieces).map datagram).map header =
      (List.range' k pieces.length).map fun i =>
        CHUNK_MAGIC_BYTES ++ id ++ [UInt8.ofNat i] ++ [UInt8.ofNat count] := by
  induction pieces generalizing k with
  | nil => rfl
  | cons piece pieces ih =>
    rw [partsFrom, List.map_cons, List.map_cons, header_datagram hid, ih, List.length_cons,
      List.range'_succ, List.map_cons]

/-- **Messages that no header tells apart.** Two large messages have the same headers, datagram
by datagram, if and only if they are encoded at the same time, as far as four bytes tell, in
equally many datagrams. -/
theorem headers_eq_iff (e : Encoder) (t t' : ℤ) (m m' : Bytes) (out out' : List Bytes)
    (hlarge : MAX_CHUNK_SIZE < m.length) (hlarge' : MAX_CHUNK_SIZE < m'.length)
    (hout : encode e t m = .ok out) (hout' : encode e t' m' = .ok out') :
    out.map header = out'.map header ↔ t ≡ t' [ZMOD 2 ^ 32] ∧ out.length = out'.length := by
  rcases encode_eq_ok.mp hout with ⟨h, -⟩ | ⟨-, -, rfl⟩
  · omega
  rcases encode_eq_ok.mp hout' with ⟨h, -⟩ | ⟨-, -, rfl⟩
  · omega
  have hheaders := fun (t : ℤ) (m : Bytes) => headers_partsFrom (length_messageId e t)
    (cut MAX_CHUNK_SIZE chunk_size_pos m).length 0 (cut MAX_CHUNK_SIZE chunk_size_pos m)
  rw [List.length_map, List.length_map, length_partsOf, length_partsOf, partsOf, partsOf, parts,
    parts, hheaders, hheaders, ← messageId_eq_iff e]
  constructor
  · intro h
    have hcount := congrArg List.length h
    rw [List.length_map, List.length_map, List.length_range', List.length_range'] at hcount
    refine ⟨?_, hcount⟩
    -- the first headers are as long as the magic bytes and the id need
    have hpieces : cut MAX_CHUNK_SIZE chunk_size_pos m ≠ [] := by
      rw [cut_of_ne_nil (List.ne_nil_of_length_pos (by omega))]
      exact List.cons_ne_nil _ _
    obtain ⟨n, hn⟩ := Nat.exists_eq_succ_of_ne_zero
      (Nat.ne_of_gt (List.length_pos_iff.mpr hpieces))
    rw [← hcount, hn, List.range'_succ, List.map_cons, List.map_cons] at h
    have hfirst := (List.cons.inj h).1
    have hids := (List.append_inj' (List.append_inj' hfirst rfl).1 rfl).1
    exact List.append_cancel_left hids
  · rintro ⟨hid, hcount⟩
    rw [hid, hcount]

/-- Two messages whose times are a turn of the four bytes apart. -/
theorem headers_eq_iff_twoChunks :
    ((partsOf encoderA 7 (twoChunks 1)).map datagram).map header =
      ((partsOf encoderA (7 + 2 ^ 32) (twoChunks 2)).map datagram).map header := by
  have hlarge : ∀ b, MAX_CHUNK_SIZE < (twoChunks b).length := fun b => by
    simp only [twoChunks, List.length_replicate]
    decide
  have hlength : ∀ t b, ((partsOf encoderA t (twoChunks b)).map datagram).length = 2 := by
    intro t b
    rw [List.length_map, length_partsOf, length_cut, twoChunks, List.length_replicate]
    decide
  exact (headers_eq_iff encoderA 7 (7 + 2 ^ 32) _ _ _ _ (hlarge 1) (hlarge 2)
    (encode_twoChunks 7 1) (encode_twoChunks (7 + 2 ^ 32) 2)).mpr
      ⟨by decide, by rw [hlength, hlength]⟩

end Logful.GelfMessageChunkEncoder
