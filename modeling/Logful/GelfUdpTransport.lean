import Logful.GelfMessageChunkEncoder
import Logful.GelfMessageJsonEncoder

/-!
`GelfUdpTransport`: the encoders of its pipeline one behind another.

`GZIPOutputStream` is code of another library; it is a parameter.
-/

namespace Logful.GelfUdpTransport

open Logful.BigEndian Logful.Delimited Logful.GelfMessageChunkEncoder
open Logful.GelfMessageJsonEncoder Logful.JsonText

variable {Double : Type}

/-- A compression that can be undone, with the two bytes that its output begins with. -/
structure Gzip where
  compress : Bytes → Bytes
  decompress : Bytes → Option Bytes
  decompress_compress : ∀ bytes, decompress (compress bytes) = some bytes
  magic : ∀ bytes, [0x1f, 0x8b] <+: compress bytes

variable (Z : Gzip) (J : JsonGenerator Double)

/-- What comes out of `GelfMessageJsonEncoder` and then `GelfCompressionEncoder`. -/
def compressed (m : Message Double) : Bytes := Z.compress (toJson J m)

/-- The content of the packets of a message, or the text of the exception. -/
def write (e : Encoder) (currentTimeMillis : ℤ) (m : Message Double) :
    Except String (List Bytes) :=
  encode e currentTimeMillis (compressed Z J m)

/-- The messages as the chunk encoder is given them. -/
def compressedAll (ms : List (ℤ × Message Double)) : List (ℤ × Bytes) :=
  ms.map fun x => (x.1, compressed Z J x.2)

/-- What a receiver makes of a message that it has put together. -/
def readMessage (bytes : Bytes) : Option (List (Option Members)) :=
  (Z.decompress bytes).map fun stream => (receive 0 stream).frames.map J.read

variable {Z J}

/-- No compressed message is taken for a chunk. -/
lemma not_chunk (m : Message Double) : ¬ CHUNK_MAGIC_BYTES <+: compressed Z J m := by
  intro h
  obtain ⟨rest, hrest⟩ := h
  obtain ⟨rest', hrest'⟩ := Z.magic (toJson J m)
  have hhead := congrArg List.head? (hrest.trans hrest'.symm)
  revert hhead
  simp [CHUNK_MAGIC_BYTES]

lemma readMessage_compressed (m : Message Double) :
    readMessage Z J (compressed Z J m) = some [some (members J m)] := by
  have hstream : streamOf J [m] = toJson J m := List.append_nil _
  have hread := (receive_streamOf J [m]).2.1
  rw [hstream] at hread
  rw [readMessage, compressed, Z.decompress_compress, Option.map_some, hread]
  rfl

/-- **Messages over UDP.** Of packets that were sent for messages, in any order and with any
losses, the receiver reads exactly the messages all of whose packets have come, each with its own
members, provided that no two chunked ones have their time in common. -/
theorem read_iff_allPackets (Z : Gzip) (J : JsonGenerator Double) (e : Encoder)
    (ms : List (ℤ × Message Double)) (happart : TimesApart (compressedAll Z J ms))
    (ds : List Bytes) (hds : ∀ d ∈ ds, d ∈ sent e (compressedAll Z J ms))
    (frames : Option (List (Option Members))) :
    (∃ bytes, Received ds bytes ∧ readMessage Z J bytes = frames) ↔
      ∃ x ∈ ms, frames = some [some (members J x.2)] ∧
        ∃ out, write Z J e x.1 x.2 = .ok out ∧ ∀ d ∈ out, d ∈ ds := by
  have hplain : ∀ x ∈ compressedAll Z J ms, ¬ CHUNK_MAGIC_BYTES <+: x.2 := by
    intro x hx
    obtain ⟨y, -, rfl⟩ := List.mem_map.mp hx
    exact not_chunk y.2
  have hreceived := received_iff e _ hplain happart ds hds
  constructor
  · rintro ⟨bytes, hbytes, rfl⟩
    obtain ⟨x, hx, rfl, out, hout, hall⟩ := (hreceived bytes).mp hbytes
    obtain ⟨y, hy, rfl⟩ := List.mem_map.mp hx
    exact ⟨y, hy, readMessage_compressed y.2, out, hout, hall⟩
  · rintro ⟨x, hx, rfl, out, hout, hall⟩
    refine ⟨compressed Z J x.2, (hreceived _).mpr ?_, readMessage_compressed x.2⟩
    exact ⟨_, List.mem_map_of_mem hx, rfl, out, hout, hall⟩

/-- The first two bytes, and the others as they are. -/
def plainGzip : Gzip where
  compress bytes := 0x1f :: 0x8b :: bytes
  decompress
    | 0x1f :: 0x8b :: bytes => some bytes
    | _ => none
  decompress_compress _ := rfl
  magic bytes := ⟨bytes, rfl⟩

def hello : Message Unit := ⟨"1.1", "h", "hello\n", none, (), some 6, ∅⟩

/-- A packet that comes twice. -/
theorem read_iff_allPackets_twice :
    ∃ d bytes, Received [d, d] bytes ∧
      readMessage plainGzip plainGenerator bytes = some [some (members plainGenerator hello)] := by
  have hout : encode encoderA 0 (compressed plainGzip plainGenerator hello) =
      .ok [compressed plainGzip plainGenerator hello] :=
    encode_eq_ok.mpr (.inl ⟨by decide +kernel, rfl⟩)
  refine ⟨compressed plainGzip plainGenerator hello,
    (read_iff_allPackets plainGzip plainGenerator encoderA [(0, hello)]
      (List.pairwise_singleton _ _) _ ?_ _).mpr ⟨_, List.mem_singleton_self _, rfl, _, hout, ?_⟩⟩
  · intro d hd
    have hsent : sent encoderA (compressedAll plainGzip plainGenerator [(0, hello)]) =
        [compressed plainGzip plainGenerator hello] := by
      simp [sent, compressedAll, hout, Except.toOption]
    rw [hsent]
    simpa using hd
  · simp

end Logful.GelfUdpTransport
