import Mathlib.Tactic.Common
import Mathlib.Tactic.IntervalCases
import TextCodec.Proofs.Calendar.DayCount
import TextCodec.Proofs.Success

/-!
# Dates one after another

Day counts number the dates as a calendar on the wall shows them: after the last day of a month
comes the first of the next month, and after the last day of a year the first of January
(`Date.dayCount_next`).

The date of a count is found with unsigned words, which cannot hold negative or large numbers.
`Date.ofDayCount?` is the same computation where every step has to fit: it fails if a difference
would be negative or if a word would lose bits. No count of the calendar makes it fail
(`Date.ofDayCount?_eq`).
-/

namespace TextCodec.Calendar

/-! ## Lengths of months -/

theorem daysInMonth_eq_ite (year : Nat) {month : Nat} (h1 : 1 ≤ month) (h12 : month ≤ 12) :
    daysInMonth year month =
      if month = 2 then 28 + leapDay year else if month ∈ [4, 6, 9, 11] then 30 else 31 := by
  rw [daysInMonth_eq, daysBefore_eq year h1 (by omega), daysBefore_eq year (by omega) (by omega)]
  rcases leapDay_cases year with ⟨-, hleap⟩ | ⟨-, hleap⟩
  · rw [hleap]
    interval_cases month <;> rfl
  · rw [hleap]
    interval_cases month <;> rfl

theorem one_le_daysInMonth (year : Nat) {month : Nat} (h1 : 1 ≤ month) (h12 : month ≤ 12) :
    1 ≤ daysInMonth year month := by
  rw [daysInMonth_eq_ite year h1 h12]
  split_ifs <;> omega

namespace Date

/-! ## The next date -/

/-- The date that follows: the next day of the month, or the first day of the next month, or the
first day of the next year. -/
def next (d : Date) : Date :=
  if d.day < daysInMonth d.year d.month then { d with day := d.day + 1 }
  else if d.month < 12 then ⟨d.year, d.month + 1, 1⟩
  else ⟨d.year + 1, 1, 1⟩

section Next

variable {d : Date} (h : d.Valid)

include h

theorem dayCount_next : d.next.dayCount = d.dayCount + 1 := by
  obtain ⟨⟨hy, -⟩, ⟨hm, hm'⟩, -, hd'⟩ := h
  have hmonth := daysBefore_succ d.year hm hm'
  unfold next
  split_ifs with hday hlast
  · rfl
  · simp only [dayCount, dayOfYear]
    omega
  · have htwelve : d.month = 12 := by omega
    have hend : daysBefore d.year (12 + 1) = _ := daysBefore_thirteen d.year
    have hyear := daysBeforeYear_succ hy
    have hstart : daysBefore (d.year + 1) 1 = 0 := daysBefore_eq (d.year + 1) (by omega) (by omega)
    rw [htwelve] at hmonth hday hd'
    simp only [dayCount, dayOfYear]
    rw [htwelve]
    omega

/-- Only the last date has none that follows. -/
theorem valid_next (hlt : d.dayCount < maxDayCount) : d.next.Valid := by
  obtain ⟨⟨hy, hy'⟩, ⟨hm, hm'⟩, hd, hd'⟩ := h
  unfold next
  split_ifs with hday hmonth
  · exact ⟨⟨hy, hy'⟩, ⟨hm, hm'⟩, Nat.le_add_left _ _, hday⟩
  · exact ⟨⟨hy, hy'⟩, ⟨Nat.le_add_left _ _, hmonth⟩, Nat.le_refl 1,
      one_le_daysInMonth d.year (Nat.le_add_left _ _) hmonth⟩
  · have hyear : d.year < 9999 := by
      by_contra hno
      have hlast : d.year = 9999 ∧ d.month = 12 := by omega
      have hdays : daysInMonth 9999 12 = 31 := by decide
      have htotal : daysBeforeYear 9999 + (daysBefore 9999 12 + 31) = maxDayCount := by decide
      unfold dayCount dayOfYear at hlt
      rw [hlast.1, hlast.2] at hlt hday
      omega
    exact ⟨⟨Nat.le_add_left _ _, hyear⟩, ⟨Nat.le_refl 1, show 1 ≤ 12 by omega⟩, Nat.le_refl 1,
      one_le_daysInMonth (d.year + 1) (Nat.le_refl 1) (show 1 ≤ 12 by omega)⟩

end Next

end Date

/-! ## Arithmetic that has to fit -/

/-- The difference of two unsigned numbers, unless it is negative. -/
def sub? (m n : Nat) : Option Nat := if n ≤ m then some (m - n) else none

/-- An unsigned number, if so many bits are enough for it. -/
def fit? (width n : Nat) : Option Nat := if n < 2 ^ width then some n else none

section Fit

variable {α : Type} {m n width : Nat}

theorem sub?_bind (h : n ≤ m) (f : Nat → Option α) : (sub? m n >>= f) = f (m - n) :=
  bind_of_eq_some (if_pos h) f

theorem fit?_bind (h : n < 2 ^ width) (f : Nat → Option α) : (fit? width n >>= f) = f n :=
  bind_of_eq_some (if_pos h) f

end Fit

namespace Date

def marchYear? (n : Nat) : Option Nat := do
  let days ← sub? n (n / 1460)
  let days ← fit? 32 (days + n / 36524)
  let days ← sub? days (n / 146096)
  return days / 365

def marchYearStart? (year : Nat) : Option Nat := do
  let days ← fit? 32 (365 * year + year / 4)
  sub? days (year / 100)

def marchMonth? (n : Nat) : Option Nat := do
  let n ← fit? 32 (5 * n + 2)
  return n / 153

def marchMonthStart? (month : Nat) : Option Nat := do
  let n ← fit? 32 (153 * month + 2)
  return n / 5

/-- The date in words of 16 bits for the year and 8 bits for month and day. -/
def fit (d : Date) : Option Date := do
  return ⟨← fit? 16 d.year, ← fit? 8 d.month, ← fit? 8 d.day⟩

def ofMarchDay? (n : Nat) : Option Date := do
  let era := n / daysPerEra
  let dayOfEra := n % daysPerEra
  let year ← marchYear? dayOfEra
  let yearStart ← marchYearStart? year
  let dayOfYear ← sub? dayOfEra yearStart
  let month ← marchMonth? dayOfYear
  let monthStart ← marchMonthStart? month
  let dayOfMonth ← sub? dayOfYear monthStart
  let day ← fit? 32 (dayOfMonth + 1)
  let year ← fit? 32 (year + era * 400)
  if month < 10 then fit ⟨year, month + 3, day⟩
  else do
    let month ← sub? month 9
    let year ← fit? 32 (year + 1)
    fit ⟨year, month, day⟩

/-- The date of a day count, if every step of its computation fits in a word of 32 bits. -/
def ofDayCount? (n : Int) : Option Date := do
  let n ← n.toNat?
  let n ← fit? 32 (n + 305)
  ofMarchDay? n

theorem marchYear?_eq {n : Nat} (h : n < daysPerEra) : marchYear? n = some (marchYear n) := by
  unfold daysPerEra at h
  unfold marchYear?
  rw [sub?_bind (by omega), fit?_bind (by omega), sub?_bind (by omega)]
  rfl

theorem marchYearStart?_eq {year : Nat} (h : year < 400) :
    marchYearStart? year = some (marchYearStart year) := by
  unfold marchYearStart? marchYearStart
  rw [fit?_bind (by omega)]
  exact if_pos (by omega)

theorem marchMonth?_eq {n : Nat} (h : n ≤ 365) : marchMonth? n = some (marchMonth n) := by
  unfold marchMonth?
  rw [fit?_bind (by omega)]
  rfl

theorem marchMonthStart?_eq {month : Nat} (h : month ≤ 11) :
    marchMonthStart? month = some (marchMonthStart month) := by
  unfold marchMonthStart?
  rw [fit?_bind (by omega)]
  rfl

theorem fit_eq {year month day : Nat} (hy : year < 2 ^ 16) (hm : month < 2 ^ 8)
    (hd : day < 2 ^ 8) :
    fit ⟨year, month, day⟩ = some ⟨year, month, day⟩ := by
  unfold fit
  rw [fit?_bind hy, fit?_bind hm, fit?_bind hd]
  rfl

theorem ofMarchDay?_eq {n : Nat} (h : n ≤ maxDayCount + 305) :
    ofMarchDay? n = some (ofMarchDay n) := by
  have hera : n % daysPerEra < daysPerEra := Nat.mod_lt _ (by decide)
  obtain ⟨hyear, hstart, hend⟩ := marchYear_spec hera
  have hleap := leapDay_le (marchYear (n % daysPerEra) + 1)
  have hday : n % daysPerEra - marchYearStart (marchYear (n % daysPerEra)) ≤ 365 := by omega
  unfold ofMarchDay? ofMarchDay
  dsimp only
  rw [bind_of_eq_some (marchYear?_eq hera), bind_of_eq_some (marchYearStart?_eq hyear),
    sub?_bind hstart]
  generalize marchYear (n % daysPerEra) = year at *
  generalize n % daysPerEra - marchYearStart year = dayOfYear at *
  have hmonth : marchMonth dayOfYear ≤ 11 := by
    unfold marchMonth
    omega
  have hfirst : marchMonthStart (marchMonth dayOfYear) ≤ dayOfYear := by
    unfold marchMonth marchMonthStart
    omega
  have hlast : dayOfYear - marchMonthStart (marchMonth dayOfYear) < 31 := by
    unfold marchMonth marchMonthStart
    omega
  have heras : n / daysPerEra ≤ 24 := by
    unfold maxDayCount at h
    unfold daysPerEra
    omega
  rw [bind_of_eq_some (marchMonth?_eq hday), bind_of_eq_some (marchMonthStart?_eq hmonth),
    sub?_bind hfirst, fit?_bind (by omega), fit?_bind (by omega)]
  split_ifs with hspring
  · exact fit_eq (by omega) (by omega) (by omega)
  · rw [sub?_bind (by omega), fit?_bind (by omega)]
    exact fit_eq (by omega) (by omega) (by omega)

/-- No step of the computation loses anything. -/
theorem ofDayCount?_eq {n : Int} {d : Date} (h : ofDayCount n = .ok d) :
    ofDayCount? n = some d := by
  unfold ofDayCount at h
  split_ifs at h with hn
  cases h
  unfold maxDayCount at hn
  unfold ofDayCount?
  rw [bind_of_eq_some (Int.mem_toNat?.2 (Int.toNat_of_nonneg (by omega)).symm),
    fit?_bind (by omega)]
  exact ofMarchDay?_eq (by unfold maxDayCount; omega)

/-! ## The calendar -/

theorem exists_ofDayCount_iff {n : Int} :
    (∃ d, ofDayCount n = .ok d) ↔ 1 ≤ n ∧ n ≤ maxDayCount := by
  constructor
  · rintro ⟨d, hd⟩
    unfold ofDayCount at hd
    split_ifs at hd with hn
    omega
  · rintro ⟨h1, hmax⟩
    exact ⟨_, if_neg (by omega)⟩

theorem ofDayCount_succ {n : Int} {d : Date} (h : ofDayCount n = .ok d) (hn : n < maxDayCount) :
    ofDayCount (n + 1) = .ok d.next := by
  obtain ⟨hvalid, hcount⟩ := ofDayCount_eq_ok_iff.1 h
  have hnext := dayCount_next hvalid
  exact ofDayCount_eq_ok_iff.2 ⟨valid_next hvalid (by omega), by omega⟩

/-- **Day counts number the calendar.** The counts from 1 to the last have dates, each its own,
which are found without a loss and follow each other as in the calendar, from the first on. -/
theorem ofDayCount_numbers (n : Int) (d : Date) :
    ((∃ e, ofDayCount n = .ok e) ↔ 1 ≤ n ∧ n ≤ 3652059) ∧
      (¬(1 ≤ n ∧ n ≤ 3652059) → ofDayCount n = .error (.invalidDayCount n)) ∧
      (ofDayCount n = .ok d → d.check = .ok d ∧ (d.dayCount : Int) = n ∧ ofDayCount? n = some d) ∧
      (d.check = .ok d →
        1 ≤ d.dayCount ∧ d.dayCount ≤ 3652059 ∧ ofDayCount d.dayCount = .ok d) ∧
      ofDayCount 1 = .ok ⟨1, 1, 1⟩ ∧
      (ofDayCount n = .ok d → n < 3652059 → ofDayCount (n + 1) = .ok d.next) := by
  refine ⟨exists_ofDayCount_iff, fun hn => ?_, fun h => ?_, fun h => ?_, rfl, ofDayCount_succ⟩
  · unfold ofDayCount maxDayCount
    exact if_pos (by omega)
  · obtain ⟨hvalid, hcount⟩ := ofDayCount_eq_ok_iff.1 h
    exact ⟨check_of_valid hvalid, hcount, ofDayCount?_eq h⟩
  · have hvalid := (check_eq_ok_iff.1 h).1
    exact ⟨one_le_dayCount hvalid, dayCount_le hvalid, ofDayCount_eq_ok_iff.2 ⟨hvalid, rfl⟩⟩

/-- The day after a leap day of a year that 400 divides. -/
theorem ofDayCount_after_leap_day :
    ofDayCount 730179 = .ok ⟨2000, 2, 29⟩ ∧ ofDayCount 730180 = .ok ⟨2000, 3, 1⟩ := by
  have h : ofDayCount 730179 = .ok ⟨2000, 2, 29⟩ := rfl
  obtain ⟨-, -, -, -, -, hsucc⟩ := ofDayCount_numbers 730179 ⟨2000, 2, 29⟩
  exact ⟨h, hsucc h (by decide)⟩

end Date

end TextCodec.Calendar
