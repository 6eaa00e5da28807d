import Logful.StringUtil

/-!
`LogFileParser.parse`.

One turn of its loop reads a frame: the four length-prefixed fields, the mark, and under
the mark 4 an attachment id and a closing mark. A turn ends with the stream behind the
frame, and with the record of the frame when its mark was known; or it leaves the loop, by
a `break` or by an exception. The listener is a pair of state transformers that may throw.
-/

namespace Logful.LogFileParser

open Logful.BigEndian Logful.StringUtil

/-- The decompressed bytes still to be read, and whether the stream throws where they run
out instead of ending. -/
structure InputStream where
  bytes : Bytes
  fails : Bool
  deriving DecidableEq

inductive Raised
  | negativeArraySize | bufferUnderflow | ioException | listener
  deriving DecidableEq

/-- How a turn leaves the loop: by `break`, with the value of `successful`, or by an
exception. -/
inductive Exit
  | stop (successful : Bool)
  | raise (e : Raised)
  deriving DecidableEq

/-- How a file is decrypted: by the key of its application or by its own. -/
structure Mode where
  compatible : Bool
  appId : Option String
  security : Option Bytes

def Mode.decrypt (c : Ciphers) (m : Mode) (chunk : Bytes) : Option String :=
  if m.compatible then AESDecryptApp c m.appId chunk else AESDecrypt c m.security chunk

/-- The arguments of `ParserEventListener.output`. -/
structure LogRecord where
  timestamp : ℤ
  tag : String
  msg : String
  layoutId : ℤ
  attachmentId : ℤ
  deriving DecidableEq

/-! ### Reading -/

/-- `BufferedInputStream.read` into an array of `n` bytes: what was put there, or nothing
for -1. A failing stream throws when the read asks for more than it has. -/
def InputStream.read (s : InputStream) (n : ℕ) : Except Raised (Option Bytes × InputStream) :=
  if n ≤ s.bytes.length then .ok (some (s.bytes.take n), ⟨s.bytes.drop n, s.fails⟩)
  else if s.fails then .error .ioException
  else if s.bytes = [] then .ok (none, s)
  else .ok (some s.bytes, ⟨[], false⟩)

/-- A read of `n` bytes, with the `break` that follows when it brings fewer. -/
def readFully (n : ℕ) (s : InputStream) : Except Exit (Bytes × InputStream) :=
  match s.read n with
  | .error e => .error (.raise e)
  | .ok (none, _) => .error (.stop false)
  | .ok (some chunk, s') => if chunk.length = n then .ok (chunk, s') else .error (.stop false)

/-- `new byte[length]` and the read into it. -/
def readChunk (length : ℤ) (s : InputStream) : Except Exit (Bytes × InputStream) :=
  if length < 0 then .error (.raise .negativeArraySize) else readFully length.toNat s

/-- `ByteUtil`: an integer from the first bytes of an array. -/
def bytesTo (w : ℕ) (chunk : Bytes) : Except Exit ℤ :=
  match get w chunk with
  | some n => .ok n
  | none => .error (.raise .bufferUnderflow)

abbrev bytesToShort := bytesTo 2
abbrev bytesToInt := bytesTo 4
abbrev bytesToLong := bytesTo 8

/-- The first read of a turn, the only one at which the stream may end. -/
def readTimeLength (s : InputStream) : Except Exit (Bytes × InputStream) :=
  match s.read 2 with
  | .error e => .error (.raise e)
  | .ok (none, _) => .error (.stop true)
  | .ok (some chunk, s') => if chunk.length = 2 then .ok (chunk, s') else .error (.stop false)

/-- A field behind its 16-bit length. -/
def readField (s : InputStream) : Except Exit (Bytes × InputStream) := do
  let (lenChunk, s) ← readFully 2 s
  let length ← bytesToShort lenChunk
  readChunk length s

/-- The attachment id and the closing mark, which only follow the mark 4. -/
def readAttachment (record : ℤ → LogRecord) (s : InputStream) :
    Except Exit (Option LogRecord × InputStream) := do
  let (attachmentIdChunk, s) ← readFully 4 s
  let attachmentId ← bytesToInt attachmentIdChunk
  let (eofMark, s) ← readFully 2 s
  let eof ← bytesToShort eofMark
  if eof = -100 then
    return (some (record attachmentId), s)
  else
    return (none, s)

/-- What follows the mark. A mark other than -100 and 4 delivers nothing. -/
def readTail (value : ℤ) (record : ℤ → LogRecord) (s : InputStream) :
    Except Exit (Option LogRecord × InputStream) :=
  if value = -100 then .ok (some (record (-1)), s)
  else if value = 4 then readAttachment record s
  else .ok (none, s)

/-- One turn of the loop up to the call of the listener. -/
def frame (c : Ciphers) (m : Mode) (s : InputStream) :
    Except Exit (Option LogRecord × InputStream) := do
  let (timeLenChunk, s) ← readTimeLength s
  let timeLength ← bytesToShort timeLenChunk
  let (timeChunk, s) ← readChunk timeLength s
  let timestamp ← bytesToLong timeChunk
  let (tagChunk, s) ← readField s
  let (msgChunk, s) ← readField s
  let (layoutIdChunk, s) ← readField s
  let layoutId ← bytesToShort layoutIdChunk
  let (testMark, s) ← readFully 2 s
  let value ← bytesToShort testMark
  match m.decrypt c tagChunk, m.decrypt c msgChunk with
  | some tag, some msg =>
    if decryptError tag || decryptError msg then .error (.stop false)
    else readTail value (fun attachmentId => ⟨timestamp, tag, msg, layoutId, attachmentId⟩) s
  | _, _ => .error (.stop false)

/-! ### The loop -/

/-- A listener: what its two methods do to its state, and whether they throw. -/
structure ParserEventListener (σ : Type*) where
  output : LogRecord → σ → σ × Bool
  result : Bool → σ → σ × Bool

/-- How the loop stands: left by one of the exits, or still running. -/
inductive Ending
  | exited (e : Exit)
  | running
  deriving DecidableEq

variable {σ : Type*}

def deliver (listener : Option (ParserEventListener σ)) (r : LogRecord) (st : σ) : σ × Bool :=
  match listener with
  | none => (st, false)
  | some l => l.output r st

def report (listener : Option (ParserEventListener σ)) (successful : Bool) (st : σ) : σ × Bool :=
  match listener with
  | none => (st, false)
  | some l => l.result successful st

/-- At most `n` turns of the loop. -/
def loop (listener : Option (ParserEventListener σ)) (c : Ciphers) (m : Mode) :
    ℕ → σ → InputStream → σ × Ending
  | 0, st, _ => (st, .running)
  | n + 1, st, s =>
    match frame c m s with
    | .error e => (st, .exited e)
    | .ok (none, s') => loop listener c m n st s'
    | .ok (some r, s') =>
      match deliver listener r st with
      | (st', true) => (st', .exited (.raise .listener))
      | (st', false) => loop listener c m n st' s'

/-- `parse`: the state of the listener afterwards, and whether its `result` threw. An
exception of the loop is caught and leaves `successful` as it was, which is `true`, since
every assignment of `false` is followed by a `break`. -/
def parse (listener : Option (ParserEventListener σ)) (c : Ciphers) (m : Mode)
    (s : InputStream) (st : σ) : σ × Bool :=
  match loop listener c m (s.bytes.length + 1) st s with
  | (st', .exited (.stop successful)) => report listener successful st'
  | (st', .exited (.raise _)) => report listener true st'
  | (st', .running) => (st', false)

end Logful.LogFileParser
