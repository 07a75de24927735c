/-!
# Lengths

Bounds on the room that decoding and encoding need. Lengths are numbers of 64 bits: a sum that
rounds up to whole groups stops at the greatest of them.
-/

namespace TextCodec.Base64

def maxLength : Nat := 18446744073709551615

/-- The sum of two lengths, or the greatest length if the sum exceeds it. -/
def addLength (m n : Nat) : Nat := min (m + n) maxLength

/-- Room for whatever `n` encoded bytes decode to. -/
def maxDecodedLength (n : Nat) : Nat := addLength n 3 / 4 * 3

/-- The length of the encoding of `n` bytes. -/
def encodedLength (n : Nat) (padded : Bool) : Nat :=
  if padded then addLength n 2 / 3 * 4 else n / 3 * 4 + if n % 3 = 0 then 0 else n % 3 + 1

end TextCodec.Base64
