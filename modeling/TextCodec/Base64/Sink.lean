import TextCodec.Text.Bytes
/-!
# Buffers that are being filled

A sink is a buffer split where the next byte goes. The places beyond keep what stood there before,
so a buffer that is not filled to its end ends as it was.
-/

namespace TextCodec.Base64

/-- A buffer that is being filled. -/
structure Sink where
  written : Array UInt8
  /-- The places left, with what stands there. -/
  room : Bytes
deriving DecidableEq, Repr

namespace Sink

def ofBuffer (buffer : Bytes) : Sink := ⟨#[], buffer⟩

def buffer (s : Sink) : Bytes := s.written.toList ++ s.room

def count (s : Sink) : Nat := s.written.size

theorem buffer_ofBuffer (buffer : Bytes) : (ofBuffer buffer).buffer = buffer := by
  simp [ofBuffer, Sink.buffer]

theorem count_ofBuffer (buffer : Bytes) : (ofBuffer buffer).count = 0 := rfl

end Sink

end TextCodec.Base64
