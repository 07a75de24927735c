import TextCodec.Calendar.Error
import TextCodec.Calendar.Month
/-!
# Dates

Dates of the proleptic Gregorian calendar from year 1 to year 9999. The *day count* of a date is its
position in that calendar, counted from 1 at `0001-01-01`. `Date.ofDayCount` goes back from a count
to its date by way of years that begin in March, so that leap days come last.

A `Date` is plain data. `Date.Valid` says which dates exist, and `Date.check` refuses the others.
-/

namespace TextCodec.Calendar

/-- A year, a month of it and a day of that month, each counted from 1. -/
structure Date where
  year : Nat
  month : Nat
  day : Nat
deriving DecidableEq, Repr

namespace Date

/-- A date that exists in the calendar. -/
def Valid (d : Date) : Prop :=
  (1 ≤ d.year ∧ d.year ≤ 9999) ∧ (1 ≤ d.month ∧ d.month ≤ 12) ∧
    (1 ≤ d.day ∧ d.day ≤ daysInMonth d.year d.month)

instance : DecidablePred Valid := fun _ => inferInstanceAs (Decidable (_ ∧ _))

def epoch : Date := ⟨1970, 1, 1⟩

def last : Date := ⟨9999, 12, 31⟩

def first : Date := ⟨1, 1, 1⟩

instance : Inhabited Date := ⟨first⟩

/-- Dates are compared by year, then by month, then by day. -/
instance : Ord Date where
  compare a b :=
    ((compare a.year b.year).then (compare a.month b.month)).then (compare a.day b.day)

/-- The date itself if it exists. Otherwise the first of year, month and day that is wrong. -/
def check (d : Date) : Except Error Date :=
  if d.year < 1 ∨ 9999 < d.year then .error (.invalidYear d.year)
  else if d.month < 1 ∨ 12 < d.month then .error (.invalidMonth d.month)
  else if d.day < 1 ∨ daysInMonth d.year d.month < d.day then .error (.invalidMonthDay d.day)
  else .ok d

theorem check_of_valid {d : Date} (h : d.Valid) : d.check = .ok d := by
  obtain ⟨hy, hm, hd⟩ := h
  unfold check
  rw [if_neg (by omega), if_neg (by omega), if_neg (by omega)]

def isLeapYear (d : Date) : Bool := IsLeap d.year

/-- The position of the date in its year, counted from 1. -/
def dayOfYear (d : Date) : Nat := daysBefore d.year d.month + d.day

/-! ## Day counts -/

/-- The days of the years before `year`. -/
def daysBeforeYear (year : Nat) : Nat :=
  (year - 1) * 365 + (year - 1) / 4 - (year - 1) / 100 + (year - 1) / 400

/-- The position of the date in the calendar, counted from 1 at `0001-01-01`. -/
def dayCount (d : Date) : Nat := daysBeforeYear d.year + d.dayOfYear

def maxDayCount : Nat := 3652059

/-! The calendar repeats after an era of 400 years. Below, years begin in March and days are counted
from 0.
-/

/-- The days of an era. -/
def daysPerEra : Nat := 146097

/-- The year of an era in which day `n` of that era falls. The three corrections undo the leap days,
which come after each 4 years, but not after each 100, and again after 400. -/
def marchYear (n : Nat) : Nat := (n - n / 1460 + n / 36524 - n / 146096) / 365

def marchYearStart (year : Nat) : Nat := 365 * year + year / 4 - year / 100

/-- The month, counted from 0 at March, in which day `n` of a year falls. -/
def marchMonth (n : Nat) : Nat := (5 * n + 2) / 153

/-- The days of a year that precede a month. Five months in a row have 153 days. -/
def marchMonthStart (month : Nat) : Nat := (153 * month + 2) / 5

/-- The date of day `n`, counted from 0 at `0000-03-01`. -/
def ofMarchDay (n : Nat) : Date :=
  let era := n / daysPerEra
  let dayOfEra := n % daysPerEra
  let year := marchYear dayOfEra
  let dayOfYear := dayOfEra - marchYearStart year
  let month := marchMonth dayOfYear
  let day := dayOfYear - marchMonthStart month + 1
  -- January and February close a March year, so they belong to the next calendar year.
  if month < 10 then ⟨year + era * 400, month + 3, day⟩
  else ⟨year + era * 400 + 1, month - 9, day⟩

/-- The date with a given day count. Day 1 is day 306 from `0000-03-01`. -/
def ofDayCount (n : Int) : Except Error Date :=
  if n < 1 ∨ (maxDayCount : Int) < n then .error (.invalidDayCount n)
  else .ok (ofMarchDay (n.toNat + 305))

/-- The date `n` days later, or earlier if `n` is negative. -/
def addDays (d : Date) (n : Int) : Except Error Date :=
  if n = 0 then .ok d
  else
    let sum := (d.dayCount : Int) + n
    if sum < 1 ∨ (maxDayCount : Int) < sum then .error .arithmeticOverflow else ofDayCount sum

end Date

end TextCodec.Calendar
