import TextCodec.Calendar.DateTime
/-!
# Values with an offset from UTC

A zoned value is what a local clock or calendar shows, together with how far that place is ahead of
UTC.
-/

namespace TextCodec.Calendar

def maxOffset : Nat := 1439

/-- A local value and its offset from UTC. -/
structure Zoned (α : Type) where
  wall : α
  /-- The minutes ahead of UTC. -/
  offset : Int
deriving DecidableEq, Repr

namespace Zoned

variable {α : Type}

instance [Inhabited α] : Inhabited (Zoned α) := ⟨⟨default, 0⟩⟩

/-- An offset of less than a day. -/
def ValidOffset (offset : Int) : Prop := -(maxOffset : Int) ≤ offset ∧ offset ≤ maxOffset

instance : DecidablePred ValidOffset := fun _ => inferInstanceAs (Decidable (_ ∧ _))

/-- A local value with its offset, refused if the offset is a day or more. -/
def of (wall : α) (offset : Int) : Except Error (Zoned α) :=
  if ValidOffset offset then .ok ⟨wall, offset⟩ else .error (.invalidOffset offset)

end Zoned

abbrev ZonedDate := Zoned Date

abbrev ZonedTime := Zoned Time

abbrev ZonedDateTime := Zoned DateTime

/-- The span by which an offset is ahead of UTC. -/
def offsetSpan (offset : Int) : Except Error Span :=
  Span.Amount.toSpan ⟨.minutes, Int64.ofInt offset⟩

namespace ZonedDateTime

/-- The same instant in UTC. -/
def utc (z : ZonedDateTime) : Except Error DateTime := do
  z.wall.sub (← offsetSpan z.offset)

/-- The zoned instant itself if its parts are valid, the local ones first. -/
def check (z : ZonedDateTime) : Except Error ZonedDateTime := do
  Zoned.of (← z.wall.check) z.offset

end ZonedDateTime

namespace ZonedDate

/-- The start of the local date as an instant in UTC. -/
def utc (z : ZonedDate) : Except Error DateTime := do
  DateTime.sub ⟨z.wall, .midnight⟩ (← offsetSpan z.offset)

def check (z : ZonedDate) : Except Error ZonedDate := do
  Zoned.of (← z.wall.check) z.offset

end ZonedDate

namespace ZonedTime

/-- The same time of day in UTC, wrapped around midnight. -/
def utc (z : ZonedTime) : Time := z.wall.add ⟨Int64.ofInt (z.offset * -msPerMinute)⟩

def check (z : ZonedTime) : Except Error ZonedTime := do
  Zoned.of (← z.wall.check) z.offset

end ZonedTime

end TextCodec.Calendar
