import Logful.LogFileParser
import Logful.Outcome

/-!
What the reads of a turn do on a stream that carries what they ask for, on a stream that
is cut short, and on the same stream with more bytes behind it.

A read that succeeds on a stream succeeds in the same way when more bytes follow, and a
read that throws still throws; only a `break` may turn into something else. The relation
`Grows` says this of two results and goes through the steps of a turn one by one.
-/

namespace Logful.ParserReads

open Logful.BigEndian Logful.StringUtil Logful.LogFileParser Logful.Outcome

variable {α β : Type}

/-! ### Whole fields -/

lemma read_append {n : ℕ} {bs : Bytes} (h : bs.length = n) (rest : Bytes) (f : Bool) :
    InputStream.read ⟨bs ++ rest, f⟩ n = .ok (some bs, ⟨rest, f⟩) := by
  subst h
  simp [InputStream.read]

lemma readFully_append {n : ℕ} {bs : Bytes} (h : bs.length = n) (rest : Bytes) (f : Bool) :
    readFully n ⟨bs ++ rest, f⟩ = .ok (bs, ⟨rest, f⟩) := by
  simp [readFully, read_append h, h]

lemma readTimeLength_append {bs : Bytes} (h : bs.length = 2) (rest : Bytes) (f : Bool) :
    readTimeLength ⟨bs ++ rest, f⟩ = .ok (bs, ⟨rest, f⟩) := by
  simp [readTimeLength, read_append h, h]

lemma readChunk_append (bs rest : Bytes) (f : Bool) :
    readChunk bs.length ⟨bs ++ rest, f⟩ = .ok (bs, ⟨rest, f⟩) := by
  rw [readChunk, if_neg (by omega), Int.toNat_natCast]
  exact readFully_append rfl rest f

lemma bytesTo_eq {w : ℕ} {bs : Bytes} (h : w ≤ bs.length) :
    bytesTo w bs = .ok (signed (bs.take w)) := by
  rw [bytesTo, get_eq_some h]

lemma bytesTo_put {w : ℕ} {n : ℤ} (hlo : -(256 ^ w : ℕ) ≤ n * 2)
    (hhi : n * 2 < (256 ^ w : ℕ)) : bytesTo w (put w n) = .ok n := by
  have h := get_put hlo hhi []
  rw [List.append_nil] at h
  rw [bytesTo, h]

lemma bytesToShort_put {n : ℤ} (hlo : -32768 ≤ n) (hhi : n ≤ 32767) :
    bytesToShort (put 2 n) = .ok n := by
  have hw : ((256 ^ 2 : ℕ) : ℤ) = 65536 := by norm_num
  have h1 : -((256 ^ 2 : ℕ) : ℤ) ≤ n * 2 := by rw [hw]; omega
  have h2 : n * 2 < ((256 ^ 2 : ℕ) : ℤ) := by rw [hw]; omega
  exact bytesTo_put h1 h2

lemma readField_append {bs : Bytes} (h : bs.length ≤ 32767) (rest : Bytes) (f : Bool) :
    readField ⟨put 2 bs.length ++ (bs ++ rest), f⟩ = .ok (bs, ⟨rest, f⟩) := by
  have h1 := readFully_append (length_put 2 bs.length) (bs ++ rest) f
  have h2 := bytesToShort_put (n := bs.length) (by omega) (by omega)
  have h3 := readChunk_append bs rest f
  simp only [readField, h1, ok_bind, h2, h3]

/-! ### More bytes behind the stream -/

/-- The second result is what the first becomes when the stream goes on with `q`. -/
def Grows (q : Bytes) (f : Bool) (x y : Except Exit (α × InputStream)) : Prop :=
  match x with
  | .ok (a, s) => s.fails = false ∧ y = .ok (a, ⟨s.bytes ++ q, f⟩)
  | .error (.raise e) => y = .error (.raise e)
  | .error (.stop _) => True

section Grows

variable {q : Bytes} {f : Bool}

lemma grows_error (e : Exit) :
    Grows q f (.error e : Except Exit (α × InputStream)) (.error e) := by
  cases e with
  | stop b => trivial
  | raise e => rfl

lemma grows_stop (b : Bool) (y : Except Exit (α × InputStream)) :
    Grows q f (.error (.stop b)) y := trivial

lemma grows_ok (a : α) (p : Bytes) :
    Grows q f (.ok (a, ⟨p, false⟩)) (.ok (a, ⟨p ++ q, f⟩)) := ⟨rfl, rfl⟩

lemma Grows.bind {x y : Except Exit (α × InputStream)}
    {g : α × InputStream → Except Exit (β × InputStream)} (h : Grows q f x y)
    (hg : ∀ a p, Grows q f (g (a, ⟨p, false⟩)) (g (a, ⟨p ++ q, f⟩))) :
    Grows q f (x >>= g) (y >>= g) := by
  rcases x with (b | e) | ⟨a, p, fails⟩
  · trivial
  · obtain rfl : y = .error (.raise e) := h
    rfl
  · obtain ⟨rfl, rfl⟩ : fails = false ∧ y = .ok (a, ⟨p ++ q, f⟩) := h
    exact hg a p

lemma Grows.bind_pure {x : Except Exit α} {g h : α → Except Exit (β × InputStream)}
    (hg : ∀ a, Grows q f (g a) (h a)) : Grows q f (x >>= g) (x >>= h) := by
  cases x with
  | error e => exact grows_error e
  | ok a => exact hg a

lemma read_of_lt {n : ℕ} {p : Bytes} (h : p.length < n) :
    InputStream.read ⟨p, false⟩ n = .ok (if p = [] then none else some p, ⟨[], false⟩) := by
  rw [InputStream.read, if_neg (by simpa using h)]
  by_cases hp : p = [] <;> simp [hp]

lemma readFully_of_lt {n : ℕ} {p : Bytes} (h : p.length < n) :
    readFully n ⟨p, false⟩ = .error (.stop false) := by
  by_cases hp : p = [] <;> rw [readFully, read_of_lt h] <;> simp [hp, h.ne]

lemma readTimeLength_of_lt {p : Bytes} (h : p.length < 2) :
    readTimeLength ⟨p, false⟩ = .error (.stop (decide (p = []))) := by
  by_cases hp : p = [] <;> rw [readTimeLength, read_of_lt h] <;> simp [hp, h.ne]

lemma readFully_grows (n : ℕ) (p : Bytes) :
    Grows q f (readFully n ⟨p, false⟩) (readFully n ⟨p ++ q, f⟩) := by
  rcases Nat.lt_or_ge p.length n with h | h
  · rw [readFully_of_lt h]
    exact grows_stop _ _
  · have h0 := readFully_append (List.length_take_of_le h) (p.drop n) false
    have h1 := readFully_append (List.length_take_of_le h) (p.drop n ++ q) f
    rw [List.take_append_drop] at h0
    rw [← List.append_assoc, List.take_append_drop] at h1
    rw [h0, h1]
    exact grows_ok _ _

lemma readTimeLength_grows (p : Bytes) :
    Grows q f (readTimeLength ⟨p, false⟩) (readTimeLength ⟨p ++ q, f⟩) := by
  rcases Nat.lt_or_ge p.length 2 with h | h
  · rw [readTimeLength_of_lt h]
    exact grows_stop _ _
  · have h0 := readTimeLength_append (List.length_take_of_le h) (p.drop 2) false
    have h1 := readTimeLength_append (List.length_take_of_le h) (p.drop 2 ++ q) f
    rw [List.take_append_drop] at h0
    rw [← List.append_assoc, List.take_append_drop] at h1
    rw [h0, h1]
    exact grows_ok _ _

lemma readChunk_grows (n : ℤ) (p : Bytes) :
    Grows q f (readChunk n ⟨p, false⟩) (readChunk n ⟨p ++ q, f⟩) := by
  unfold readChunk
  split
  · exact grows_error _
  · exact readFully_grows _ p

lemma readField_grows (p : Bytes) :
    Grows q f (readField ⟨p, false⟩) (readField ⟨p ++ q, f⟩) := by
  unfold readField
  refine (readFully_grows 2 p).bind fun lenChunk p => ?_
  exact Grows.bind_pure fun length => readChunk_grows length p

lemma readAttachment_grows (record : ℤ → LogRecord) (p : Bytes) :
    Grows q f (readAttachment record ⟨p, false⟩) (readAttachment record ⟨p ++ q, f⟩) := by
  unfold readAttachment
  refine (readFully_grows 4 p).bind fun idChunk p => Grows.bind_pure fun id => ?_
  refine (readFully_grows 2 p).bind fun eofMark p => Grows.bind_pure fun eof => ?_
  by_cases h : eof = -100 <;> simp only [h, if_true, if_false] <;> exact grows_ok _ _

lemma readTail_grows (value : ℤ) (record : ℤ → LogRecord) (p : Bytes) :
    Grows q f (readTail value record ⟨p, false⟩) (readTail value record ⟨p ++ q, f⟩) := by
  unfold readTail
  split_ifs
  · exact grows_ok _ _
  · exact readAttachment_grows record p
  · exact grows_ok _ _

/-- **A turn on a longer stream.** A turn that stays inside the bytes of a stream that ends
does the same when more bytes follow. -/
theorem frame_grows (c : Ciphers) (m : Mode) (p : Bytes) :
    Grows q f (frame c m ⟨p, false⟩) (frame c m ⟨p ++ q, f⟩) := by
  unfold frame
  refine (readTimeLength_grows p).bind fun _ p => Grows.bind_pure fun _ => ?_
  refine (readChunk_grows _ p).bind fun _ p => Grows.bind_pure fun _ => ?_
  refine (readField_grows p).bind fun tagChunk p => ?_
  refine (readField_grows p).bind fun msgChunk p => ?_
  refine (readField_grows p).bind fun _ p => Grows.bind_pure fun _ => ?_
  refine (readFully_grows 2 p).bind fun _ p => Grows.bind_pure fun value => ?_
  rcases m.decrypt c tagChunk with _ | tag
  · exact grows_stop _ _
  rcases m.decrypt c msgChunk with _ | msg
  · exact grows_stop _ _
  by_cases h : (decryptError tag || decryptError msg) = true
  · simp only [h, if_true]
    exact grows_stop _ _
  · simp only [h]
    exact readTail_grows value _ p

end Grows

/-! ### Bytes used up, and where a turn leaves the loop -/

/-- A turn past its first read only breaks off the loop with `successful` cleared. -/
def Inside (e : Exit) : Prop := e ≠ .stop true

/-- A read splits the bytes of the stream. -/
lemma read_split {k : ℕ} {s t : InputStream} {chunk : Bytes}
    (h : s.read k = .ok (some chunk, t)) : s.bytes = chunk ++ t.bytes := by
  unfold InputStream.read at h
  split_ifs at h <;> cases h <;> simp

lemma readFully_spec (k : ℕ) (s : InputStream) :
    Holds (readFully k s) (fun p => p.2.bytes.length + k = s.bytes.length) Inside := by
  unfold readFully
  split
  · simp [Inside]
  · simp [Inside]
  · next chunk t h =>
    have hs := congrArg List.length (read_split h)
    rw [List.length_append] at hs
    split_ifs
    · exact (show t.bytes.length + k = s.bytes.length by omega)
    · simp [Inside]

lemma readTimeLength_spec (s : InputStream) :
    Holds (readTimeLength s) (fun p => p.2.bytes.length + 2 = s.bytes.length)
      (fun e => e = .stop true → s.bytes = [] ∧ s.fails = false) := by
  unfold readTimeLength
  split
  · simp
  · next t h =>
    unfold InputStream.read at h
    split_ifs at h with h1 h2 h3 <;> simp at h
    exact fun _ => ⟨h3, by simpa using h2⟩
  · next chunk t h =>
    have hs := congrArg List.length (read_split h)
    rw [List.length_append] at hs
    split_ifs
    · exact (show t.bytes.length + 2 = s.bytes.length by omega)
    · simp

lemma bytesTo_spec (w : ℕ) (chunk : Bytes) :
    Holds (bytesTo w chunk) (fun _ => w ≤ chunk.length) Inside := by
  unfold bytesTo BigEndian.get
  split_ifs with h
  · exact h
  · simp [Inside]

lemma readChunk_spec (k : ℤ) (s : InputStream) :
    Holds (readChunk k s) (fun p => p.2.bytes.length ≤ s.bytes.length) Inside := by
  unfold readChunk
  split_ifs
  · simp [Inside]
  · exact (readFully_spec _ s).mono (fun p hp => by omega) (fun _ he => he)

lemma readField_spec (s : InputStream) :
    Holds (readField s) (fun p => p.2.bytes.length ≤ s.bytes.length) Inside := by
  unfold readField
  refine (readFully_spec 2 s).bind fun p hp => (bytesTo_spec 2 p.1).bind fun k _ => ?_
  exact (readChunk_spec k p.2).mono (fun t ht => by omega) (fun _ he => he)

lemma readTail_spec (value : ℤ) (record : ℤ → LogRecord) (s : InputStream) :
    Holds (readTail value record s) (fun p => p.2.bytes.length ≤ s.bytes.length) Inside := by
  unfold readTail
  split_ifs
  · exact le_rfl
  · unfold readAttachment
    refine (readFully_spec 4 s).bind fun p hp => (bytesTo_spec 4 p.1).bind fun _ _ => ?_
    refine (readFully_spec 2 p.2).bind fun t ht => (bytesTo_spec 2 t.1).bind fun eof _ => ?_
    by_cases h : eof = -100 <;> simp only [h, if_true, if_false] <;>
      exact (show t.2.bytes.length ≤ s.bytes.length by omega)
  · exact le_rfl

/-- **What a turn does to the stream.** A turn that goes on has used up at least the two
bytes of its first length, and the loop is only left with `successful` still set at the very
end of a stream that ends. -/
theorem frame_spec (c : Ciphers) (m : Mode) (s : InputStream) :
    Holds (frame c m s) (fun p => p.2.bytes.length + 2 ≤ s.bytes.length)
      (fun e => e = .stop true → s.bytes = [] ∧ s.fails = false) := by
  have weaken : ∀ {β : Type} {x : Except Exit β} {Q : β → Prop}, Holds x Q Inside →
      Holds x Q (fun e => e = .stop true → s.bytes = [] ∧ s.fails = false) :=
    fun hx => hx.mono (fun _ hq => hq) fun e he h => absurd h he
  unfold frame
  refine (readTimeLength_spec s).bind fun p1 h1 => weaken ?_
  refine (bytesTo_spec 2 p1.1).bind fun k _ => ?_
  refine (readChunk_spec k p1.2).bind fun p2 h2 => (bytesTo_spec 8 p2.1).bind fun _ _ => ?_
  refine (readField_spec p2.2).bind fun p3 h3 => ?_
  refine (readField_spec p3.2).bind fun p4 h4 => ?_
  refine (readField_spec p4.2).bind fun p5 h5 => (bytesTo_spec 2 p5.1).bind fun _ _ => ?_
  refine (readFully_spec 2 p5.2).bind fun p6 h6 => (bytesTo_spec 2 p6.1).bind fun value _ => ?_
  rcases m.decrypt c p3.1 with _ | tag
  · simp [Inside]
  rcases m.decrypt c p4.1 with _ | msg
  · simp [Inside]
  by_cases h : (decryptError tag || decryptError msg) = true
  · simp only [h, if_true]
    simp [Inside]
  · simp only [h]
    exact (readTail_spec value _ p6.2).mono (fun t ht => by omega) (fun _ he => he)

/-! ### The loop, by what its first turn does -/

section Loop

variable {σ : Type} {l : Option (ParserEventListener σ)} {c : Ciphers} {m : Mode} {n : ℕ}
  {st st' : σ} {s t : InputStream} {r : LogRecord}

lemma loop_exit {e : Exit} (h : frame c m s = .error e) :
    loop l c m (n + 1) st s = (st, .exited e) := by
  rw [loop, h]

lemma loop_skip (h : frame c m s = .ok (none, t)) :
    loop l c m (n + 1) st s = loop l c m n st t := by
  rw [loop, h]

lemma loop_output (h : frame c m s = .ok (some r, t)) (hd : deliver l r st = (st', false)) :
    loop l c m (n + 1) st s = loop l c m n st' t := by
  rw [loop, h]
  simp only [hd]

lemma loop_throw (h : frame c m s = .ok (some r, t)) (hd : deliver l r st = (st', true)) :
    loop l c m (n + 1) st s = (st', .exited (.raise .listener)) := by
  rw [loop, h]
  simp only [hd]

/-- **The loop ends** within as many turns as the stream has bytes, and one more. -/
theorem loop_exits (h : s.bytes.length < n) : ∃ e, (loop l c m n st s).2 = .exited e := by
  induction n generalizing st s with
  | zero => omega
  | succ n ih =>
    rcases hf : frame c m s with e | ⟨_ | r, t⟩
    · exact ⟨e, by rw [loop_exit hf]⟩
    · have hlen := (frame_spec c m s).of_ok hf
      rw [loop_skip hf]
      exact ih (by simp only at hlen; omega)
    · have hlen := (frame_spec c m s).of_ok hf
      rcases hd : deliver l r st with ⟨st', _ | _⟩
      · rw [loop_output hf hd]
        exact ih (by simp only at hlen; omega)
      · exact ⟨_, by rw [loop_throw hf hd]⟩

end Loop

end Logful.ParserReads
