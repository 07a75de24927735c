import TextCodec.Text.Report
/-!
# Errors of calendar operations

One constructor per cause. `Error.name` and `Error.text` are the names and the wording under which
errors are reported.
-/

namespace TextCodec.Calendar

/-- Why a calendar value, an operation on it or a text of it was refused. -/
inductive Error where
  | arithmeticOverflow
  | invalidDayCount (received : Int)
  | invalidHour (received : Nat)
  | invalidMillisecond (received : Nat)
  | invalidMinute (received : Nat)
  | invalidMonth (received : Nat)
  | invalidMonthDay (received : Nat)
  | invalidSecond (received : Nat)
  | invalidOffset (received : Int)
  | invalidYear (received : Nat)
  | malformedText
  /-- Hour 24 stands with something else than a plain midnight. -/
  | misplacedEndOfDay
  | shortText (expected received : Nat)
  /-- The text does not end in a time zone. -/
  | malformedZone
  /-- The fields are right, but the instant they denote is outside the calendar. -/
  | instantOutOfRange
deriving DecidableEq, Repr

namespace Error

def name : Error → String
  | arithmeticOverflow => "ArithmeticOverflow"
  | invalidDayCount _ => "InvalidCeDays"
  | invalidHour _ => "InvalidHour"
  | invalidMillisecond _ => "InvalidMillisecond"
  | invalidMinute _ => "InvalidMinute"
  | invalidMonth _ => "InvalidMonth"
  | invalidMonthDay _ => "InvalidMonthDay"
  | invalidSecond _ => "InvalidSecond"
  | invalidOffset _ => "InvalidTimezoneOffset"
  | invalidYear _ => "InvalidYear"
  | malformedText => "InvalidParsingBytes"
  | misplacedEndOfDay => "InvalidParsingClockTime"
  | shortText _ _ => "InvalidParsingLength"
  | malformedZone => "InvalidParsingTimezone"
  | instantOutOfRange => "ParsedValueOutOfRange"

def fields : Error → List (String × Int)
  | invalidDayCount n | invalidOffset n => [("received", n)]
  | invalidHour n | invalidMillisecond n | invalidMinute n | invalidMonth n | invalidMonthDay n
  | invalidSecond n | invalidYear n => [("received", n)]
  | shortText expected received => [("expected", expected), ("received", received)]
  | arithmeticOverflow | malformedText | misplacedEndOfDay | malformedZone
  | instantOutOfRange => []

def text (e : Error) : String := Report.record e.name e.fields

end Error

end TextCodec.Calendar
