import TextCodec.Calendar.Date
import TextCodec.Calendar.Time
/-!
# Instants

A date with a time of day. Instants are counted in milliseconds from `0001-01-01T00:00:00.000`, and
arithmetic works on that count.
-/

namespace TextCodec.Calendar

/-- A date and a time of that day. -/
structure DateTime where
  date : Date
  time : Time
deriving DecidableEq, Repr

namespace DateTime

/-- An instant whose date exists and whose time a clock shows. -/
def Valid (a : DateTime) : Prop := a.date.Valid ∧ a.time.Valid

instance : DecidablePred Valid := fun _ => inferInstanceAs (Decidable (_ ∧ _))

def epoch : DateTime := ⟨.epoch, .midnight⟩

def last : DateTime := ⟨.last, .last⟩

def first : DateTime := ⟨.first, .midnight⟩

instance : Inhabited DateTime := ⟨first⟩

/-- Instants are compared by date, then by time. -/
instance : Ord DateTime where
  compare a b := (compare a.date b.date).then (compare a.time b.time)

/-- The instant itself if its date exists and a clock shows its time. -/
def check (a : DateTime) : Except Error DateTime := do
  return ⟨← a.date.check, ← a.time.check⟩

/-- The milliseconds since the first instant. -/
def milliseconds (a : DateTime) : Int :=
  ((a.date.dayCount : Int) - 1) * msPerDay + a.time.sinceMidnight

/-- The instant at a number of milliseconds since the first one. -/
def ofMilliseconds (n : Int) : Except Error DateTime :=
  let days := n / msPerDay + 1
  if days < 1 ∨ (Date.maxDayCount : Int) < days then .error .arithmeticOverflow
  else do return ⟨← Date.ofDayCount days, .ofSinceMidnight (n % msPerDay).toNat⟩

/-- The milliseconds since `1970-01-01T00:00:00.000`. -/
def timestamp (a : DateTime) : Int := a.milliseconds - epoch.milliseconds

def add (a : DateTime) (s : Span) : Except Error DateTime :=
  if s.isZero then .ok a else ofMilliseconds (a.milliseconds + s.toInt)

def sub (a : DateTime) (s : Span) : Except Error DateTime := a.add s.neg

/-- The span from `b` to `a`. The counts of valid instants are so close that it always fits. -/
def since (a b : DateTime) : Span := ⟨Int64.ofInt (a.milliseconds - b.milliseconds)⟩

end DateTime

end TextCodec.Calendar
