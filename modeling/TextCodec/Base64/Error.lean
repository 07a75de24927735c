import TextCodec.Text.Report
/-!
# Errors of Base64 decoding

One constructor per cause. `Error.name` and `Error.text` are the names and the wording under which
errors are reported.
-/

namespace TextCodec.Base64

/-- Why a decoder refused its input. -/
inductive Error where
  | alreadyFinished
  | dataAfterPadding
  /-- The input ends with one symbol of a group, which is less than a byte. -/
  | incompleteQuantum
  /-- The buffer has no room for a byte that is waiting. -/
  | insufficientOutput
  /-- A `=` stands where it does not complete a group of four. -/
  | misplacedPadding
  /-- The input ends in a group that `=` has to complete. -/
  | missingPadding
  | sticky
  /-- A byte is neither a symbol nor skipped. -/
  | unrecognizedCharacter (byte : UInt8)
deriving DecidableEq, Repr

namespace Error

def name : Error → String
  | alreadyFinished => "AlreadyFinished"
  | dataAfterPadding => "DataAfterPadding"
  | incompleteQuantum => "IncompleteQuantum"
  | insufficientOutput => "InsufficientOutput"
  | misplacedPadding => "MisplacedPadding"
  | missingPadding => "MissingPadding"
  | sticky => "Sticky"
  | unrecognizedCharacter _ => "UnrecognizedCharacter"

def fields : Error → List (String × Int)
  | unrecognizedCharacter byte => [("byte", byte.toNat)]
  | _ => []

def text (e : Error) : String := Report.record e.name e.fields

end Error

end TextCodec.Base64
