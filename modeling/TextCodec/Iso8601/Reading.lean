import TextCodec.Calendar.Zoned
import TextCodec.Iso8601.Fields
/-!
# Reading texts

A text has to match its form to the last byte. It may end in a time zone, whatever its type.

Three things that no clock shows are read all the same: second 60, a fraction that rounds up to
a whole second, and `24:00:00`, the end of a day. Each of them is replaced by the nearest value that
a clock shows, and the difference is added again. Hour 24 stands for one instant of the day only, so
it is refused with anything else than zeros, and with an offset.
-/

namespace TextCodec.Iso8601

open Calendar

/-- What a reader found, or an error if it found nothing. -/
def expect {α : Type} (e : Error) : Option α → Except Error α
  | some a => .ok a
  | none => .error e

def checkLength (text : Bytes) (width : Nat) : Except Error Unit :=
  if text.length < width then .error (.shortText width text.length) else .ok ()

def minDateWidth : Nat := 10

def minTimeWidth : Nat := 8

def minDateTimeWidth : Nat := 19

/-- The offset at the end of a text, zero if nothing is left. -/
def trailingOffset (text : Bytes) : Except Error Int :=
  match text with
  | [] => .ok 0
  | _ :: _ =>
    match zone text with
    | none => .error .malformedZone
    | some (offset, []) => .ok offset
    | some (_, _ :: _) => .error .malformedText

/-! ## Dates -/

namespace DateFields

def toDate (f : DateFields) : Except Error Date := Date.check ⟨f.year, f.month, f.day⟩

end DateFields

def readZonedDate (text : Bytes) : Except Error ZonedDate := do
  checkLength text minDateWidth
  let (fields, rest) ← expect .malformedText (dateFields text)
  let date ← fields.toDate
  let offset ← trailingOffset rest
  Zoned.of date offset

/-- Reads a date. A plain date has no place for an offset, which is read and dropped. -/
def readDate (text : Bytes) : Except Error Date := do
  checkLength text minDateWidth
  let (fields, rest) ← expect .malformedText (dateFields text)
  let date ← fields.toDate
  let _ ← trailingOffset rest
  return date

/-! ## Times -/

namespace TimeFields

/-- Whether the fields have hour 24. -/
def isEndOfDay (f : TimeFields) : Bool := f.hour = 24

/-- Refuses hour 24 with an offset or with anything else than zeros. -/
def checkEndOfDay (f : TimeFields) (offset : Int) : Except Error Unit :=
  if f.isEndOfDay ∧ (f.minute ≠ 0 ∨ f.second ≠ 0 ∨ f.millisecond ≠ 0 ∨ f.isLeapSecond ∨ offset ≠ 0)
  then .error .misplacedEndOfDay
  else .ok ()

/-- The hour, with hour 24 taken as the start of a day. -/
def hourOfDay (f : TimeFields) : Nat := if f.isEndOfDay then 0 else f.hour

/-- The milliseconds by which a leap second is late. -/
def leapDelay (f : TimeFields) : Nat := if f.isLeapSecond then msPerSecond else 0

/-- The time of day, wrapped around midnight. -/
def toTime (f : TimeFields) : Except Error Time := do
  let time ← Time.check ⟨f.hourOfDay, f.minute, f.second, 0⟩
  return time.add ⟨Int64.ofNat (f.millisecond + f.leapDelay)⟩

end TimeFields

/-- Reads a time of day and its offset. -/
def readLocalTime (text : Bytes) : Except Error (Time × Int) := do
  checkLength text minTimeWidth
  let (fields, rest) ← expect .malformedText (timeFields text)
  let offset ← trailingOffset rest
  fields.checkEndOfDay offset
  return (← fields.toTime, offset)

def readZonedTime (text : Bytes) : Except Error ZonedTime := do
  let (time, offset) ← readLocalTime text
  Zoned.of time offset

/-- Reads a time and takes it to UTC. -/
def readTime (text : Bytes) : Except Error Time := do
  let (time, offset) ← readLocalTime text
  return ZonedTime.utc (← Zoned.of time offset)

/-! ## Instants -/

/-- The instant of a date and a time. It is reached from the last clock time before it, by the delay
that no clock shows. -/
def toInstant (d : DateFields) (t : TimeFields) : Except Error DateTime := do
  let isWholeSecond := t.millisecond = msPerSecond
  let delay :=
    (if t.isEndOfDay then msPerDay else 0) + t.leapDelay +
      (if isWholeSecond then msPerSecond else 0)
  let date ← d.toDate
  let time ← Time.check
    ⟨t.hourOfDay, t.minute, t.second, if isWholeSecond then 0 else t.millisecond⟩
  (DateTime.add ⟨date, time⟩ ⟨Int64.ofNat delay⟩).mapError fun _ => .instantOutOfRange

def readZonedDateTime (text : Bytes) : Except Error ZonedDateTime := do
  checkLength text minDateTimeWidth
  let (date, rest) ← expect .malformedText (dateFields text)
  let rest ← expect .malformedText (Decimal.literal 'T'.toUInt8 rest)
  let (time, rest) ← expect .malformedText (timeFields rest)
  let offset ← trailingOffset rest
  time.checkEndOfDay offset
  Zoned.of (← toInstant date time) offset

/-- Reads an instant and takes it to UTC. -/
def readDateTime (text : Bytes) : Except Error DateTime := do
  let zoned ← readZonedDateTime text
  zoned.utc.mapError fun _ => .instantOutOfRange

end TextCodec.Iso8601
