import TextCodec.Base64.Decoder
/-!
# Decoding a stream

A whole text is decoded with a buffer of fixed size. The text is cut into pieces, each piece is fed
until the decoder has taken all of it, and then the text is ended.
-/

namespace TextCodec.Base64

/-- A text cut into pieces of `size` bytes, or of one byte if `size` is zero. The last piece may be
shorter. -/
def pieces (size : Nat) : Bytes → List Bytes
  | [] => []
  | b :: text => (b :: text.take (size - 1)) :: pieces size (text.drop (size - 1))
termination_by text => text.length
decreasing_by simp only [List.length_drop, List.length_cons]; omega

theorem flatten_pieces (size : Nat) (text : Bytes) : (pieces size text).flatten = text := by
  fun_induction pieces size text with
  | case1 => rfl
  | case2 b text ih => simp [ih]

/-- A stream that is being decoded. -/
structure Stream where
  decoder : Decoder
  decoded : Bytes := []
  calls : Nat := 0
  /-- The error that stopped the stream, if one did. -/
  fault : Option Error := none

namespace Stream

/-- Keeps what a call wrote, and the error if it failed. -/
def record {α : Type} (s : Stream) (o : Outcome α) : Stream where
  decoder := o.decoder
  decoded := s.decoded ++ o.buffer.take o.decoder.outputLength
  calls := s.calls
  fault := match o.result with
    | .error e => some e
    | .ok _ => none

def emptyBuffer (capacity : Nat) : Bytes := List.replicate capacity 0

/-- Feeds a piece, and then again what is left of it. A call that takes nothing ends the stream, for
want of room. -/
def feed (capacity : Nat) (s : Stream) (piece : Bytes) : Stream :=
  match piece with
  | [] => s
  | b :: text =>
    let o := s.decoder.convert (emptyBuffer capacity) (b :: text)
    let s := { s.record o with calls := s.calls + 1 }
    match o.result with
    | .error _ => s
    | .ok progress =>
      if progress.consumed = 0 then { s with fault := some .insufficientOutput }
      else s.feed capacity ((b :: text).drop progress.consumed)
termination_by piece.length
decreasing_by simp only [List.length_drop, List.length_cons]; omega

/-- Feeds pieces in turn, until one fails. -/
def feedAll (capacity : Nat) (s : Stream) : List Bytes → Stream
  | [] => s
  | piece :: rest =>
    let s := s.feed capacity piece
    if s.fault.isSome then s else s.feedAll capacity rest

/-- Ends the text, unless the stream has stopped before. -/
def finish (capacity : Nat) (s : Stream) : Stream :=
  if s.fault.isSome then s else s.record (s.decoder.finish (emptyBuffer capacity))

/-- Decodes a text in pieces of `size` bytes, with buffers of `capacity` bytes. -/
def decode (options : Options) (size capacity : Nat) (text : Bytes) : Stream :=
  (({ decoder := .new options } : Stream).feedAll capacity (pieces size text)).finish capacity

end Stream

end TextCodec.Base64
