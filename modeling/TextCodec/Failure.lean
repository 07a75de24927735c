import TextCodec.Base64.Encoding
import TextCodec.Base64.Error
import TextCodec.Calendar.Error
import TextCodec.Iso8601.Codec
/-!
# Failures

The errors of the library in one type. A failure is reported as the error that caused it, with the
group that the error belongs to.
-/

namespace TextCodec

/-- Why a text was not read or not written. -/
inductive Failure where
  | calendar (e : Calendar.Error)
  | base64 (e : Base64.Error)
  | encoding (e : Base64.OutputTooSmall)
deriving DecidableEq, Repr

namespace Failure

def outputTooSmallName : String := "OutputSliceTooSmall"

def name : Failure → String
  | calendar e => e.name
  | base64 e => e.name
  | encoding _ => outputTooSmallName

def text : Failure → String
  | calendar e => Report.group "CalendarError" e.text
  | base64 e => Report.group "Base64Error" e.text
  | encoding _ => Report.group "EncodeSliceError" outputTooSmallName

end Failure

/-- Reads a value from its ISO 8601 text. -/
def Iso8601.parse {α : Type} [IsoText α] (text : Bytes) : Except Failure α :=
  (IsoText.read text).mapError .calendar

end TextCodec
