import TextCodec.Text.Decimal
/-!
# Fields of a text

The parts of a text as they stand in it, before anyone asks whether they denote a value. A fraction
of a second is rounded to milliseconds here, so a time can have 1000 of them.
-/

namespace TextCodec.Iso8601

open Decimal

/-- The fields of a date. -/
structure DateFields where
  year : Nat
  month : Nat
  day : Nat
deriving DecidableEq, Repr

structure TimeFields where
  hour : Nat
  minute : Nat
  /-- Two digits, 59 for a leap second. -/
  second : Nat
  /-- The fraction of the second in milliseconds, up to 1000. -/
  millisecond : Nat
  /-- Whether the second was written 60. -/
  isLeapSecond : Bool
deriving DecidableEq, Repr

/-- `YYYY-MM-DD`. -/
def dateFields : Reader DateFields := fun text => do
  let (year, rest) ← field 4 text
  let rest ← literal '-'.toUInt8 rest
  let (month, rest) ← field 2 rest
  let rest ← literal '-'.toUInt8 rest
  let (day, rest) ← field 2 rest
  return (⟨year, month, day⟩, rest)

/-- The milliseconds of a fraction, given its digits. The first four decide: the fifth and later
ones cannot carry a half over. -/
def roundFraction (run : Bytes) : Nat :=
  (value ((run ++ List.replicate 4 '0'.toUInt8).take 4) + 5) / 10

/-- The digits after the point, in milliseconds. -/
def fraction : Reader Nat := fun text =>
  let run := text.takeWhile isDigit
  if run.isEmpty then none else some (roundFraction run, text.drop run.length)

/-- A point and a fraction if the text goes on with a point. Otherwise nothing is read. -/
def optionalFraction : Reader Nat := fun text =>
  match text with
  | [] => some (0, [])
  | b :: rest => if b = '.'.toUInt8 then fraction rest else some (0, text)

/-- `hh:mm:ss`, with a fraction or without one. -/
def timeFields : Reader TimeFields := fun text => do
  let (hour, rest) ← field 2 text
  let rest ← literal ':'.toUInt8 rest
  let (minute, rest) ← field 2 rest
  let rest ← literal ':'.toUInt8 rest
  let (second, rest) ← field 2 rest
  let (millisecond, rest) ← optionalFraction rest
  if second = 60 then return (⟨hour, minute, 59, millisecond, true⟩, rest)
  else return (⟨hour, minute, second, millisecond, false⟩, rest)

/-- `hh:mm` with an hour below 24 and a minute below 60, in minutes. -/
def zoneMinutes : Reader Nat := fun text => do
  let (hour, rest) ← field 2 text
  let rest ← literal ':'.toUInt8 rest
  let (minute, rest) ← field 2 rest
  if hour < 24 ∧ minute < 60 then return (hour * 60 + minute, rest) else none

/-- `Z` or `z`, or a sign with `hh:mm`, as the minutes ahead of UTC. -/
def zone : Reader Int := fun text =>
  match text with
  | [] => none
  | b :: rest =>
    if b = 'Z'.toUInt8 ∨ b = 'z'.toUInt8 then some (0, rest)
    else if b = '+'.toUInt8 then (zoneMinutes rest).map fun p => ((p.1 : Int), p.2)
    else if b = '-'.toUInt8 then (zoneMinutes rest).map fun p => (-(p.1 : Int), p.2)
    else none

end TextCodec.Iso8601
