import TextCodec.Base64.Alphabet
/-!
# Encoding

Three bytes are written as four symbols of six bits each. One or two bytes that are left over are
filled up with zero bits to whole symbols, and with `=` to four characters if padding is asked for.

`encode` says what the encoding of a byte string is. Writing it to a buffer is left to engines, one
for each alphabet and kind of padding; `encodeInto` writes with engines that follow `encode`.
-/

namespace TextCodec.Base64

/-- The encoding of a byte string. -/
def encode (a : Alphabet) (padded : Bool) : Bytes → Bytes
  | x :: y :: z :: rest =>
    let n := x.toNat * 65536 + y.toNat * 256 + z.toNat
    a.symbol (n / 262144) :: a.symbol (n / 4096 % 64) :: a.symbol (n / 64 % 64) ::
      a.symbol (n % 64) :: encode a padded rest
  | [x, y] =>
    let n := x.toNat * 256 + y.toNat
    [a.symbol (n / 1024), a.symbol (n / 16 % 64), a.symbol (n % 16 * 4)] ++
      if padded then [pad] else []
  | [x] =>
    [a.symbol (x.toNat / 4), a.symbol (x.toNat % 4 * 16)] ++
      if padded then [pad, pad] else []
  | [] => []

/-- A buffer is too short for an encoding. -/
structure OutputTooSmall where
deriving DecidableEq, Repr

/-- Writes encodings to the front of buffers. Returns the length of the encoding, and the buffer
after the call. -/
abbrev Engine := (bytes buffer : Bytes) → Except OutputTooSmall (Nat × Bytes)

/-- The engine that writes `encode`, and nothing if the buffer is too short. -/
def engine (a : Alphabet) (padded : Bool) : Engine := fun bytes buffer =>
  let text := encode a padded bytes
  if buffer.length < text.length then .error {} else .ok (text.length, buffer.overwrite text)

/-- An engine for each kind of encoding. -/
structure Engines where
  standard : Engine
  standardUnpadded : Engine
  urlSafe : Engine
  urlSafeUnpadded : Engine

namespace Engines

/-- The engine for an alphabet, with padding or without. -/
def select (engines : Engines) : Alphabet → (padded : Bool) → Engine
  | .basic, true => engines.standard
  | .basic, false => engines.standardUnpadded
  | .url, true => engines.urlSafe
  | .url, false => engines.urlSafeUnpadded

/-- A buffer with an encoding at its front, and the length of that encoding. -/
def encodeInto (engines : Engines) (a : Alphabet) (padded : Bool) : Engine :=
  engines.select a padded

/-- The engines that write `encode`. -/
def builtin : Engines where
  standard := engine .basic true
  standardUnpadded := engine .basic false
  urlSafe := engine .url true
  urlSafeUnpadded := engine .url false

end Engines

/-- A buffer with an encoding at its front, and the length of that encoding. Nothing is written if
the buffer is too short. -/
def encodeInto (a : Alphabet) (padded : Bool) (bytes buffer : Bytes) :
    Except OutputTooSmall (Nat × Bytes) :=
  Engines.builtin.encodeInto a padded bytes buffer

end TextCodec.Base64
