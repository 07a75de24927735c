/-!
# Months

Leap years and the months of a year in the proleptic Gregorian calendar.
-/

namespace TextCodec.Calendar

/-- A year is leap if 4 divides it, unless it is a century that 400 does not divide. -/
def IsLeap (year : Nat) : Prop := year % 4 = 0 ∧ (year % 100 ≠ 0 ∨ year % 400 = 0)

instance : DecidablePred IsLeap := fun _ => inferInstanceAs (Decidable (_ ∧ _))

/-- The days of the year that precede each month. The last entry is the length of the year. -/
def monthStarts (year : Nat) : List Nat :=
  if IsLeap year then [0, 31, 60, 91, 121, 152, 182, 213, 244, 274, 305, 335, 366]
  else [0, 31, 59, 90, 120, 151, 181, 212, 243, 273, 304, 334, 365]

/-- The days of the year that precede a month. -/
def daysBefore (year month : Nat) : Nat := (monthStarts year).getD (month - 1) 0

def daysInMonth (year month : Nat) : Nat := (monthStarts year).getD month 0 - daysBefore year month

theorem length_monthStarts (year : Nat) : (monthStarts year).length = 13 := by
  unfold monthStarts
  split <;> rfl

end TextCodec.Calendar
