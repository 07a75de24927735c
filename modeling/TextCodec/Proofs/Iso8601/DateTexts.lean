import TextCodec.Failure
import TextCodec.Proofs.Calendar.Succession
import TextCodec.Proofs.Iso8601.Texts

/-!
# Texts of dates

Local dates and plain dates are read from the same texts (`IsDated`): the numbers of a date of the
calendar in four, two and two digits with hyphens between them, and then a zone or nothing. A local
date keeps the offset of the zone, and a plain date has no place for it (`parse_date`).

A hyphen stands between the numbers, and may begin the zone. The digits of a number are read as far
as they go, so a number with more digits than its place is refused, and not cut.
-/

namespace TextCodec

/-- A run of digits that fills a place, with its number. -/
structure Decimal.IsNumber (width : Nat) (run : Bytes) (n : Nat) : Prop where
  isRun : IsRun run
  length_eq : run.length = width
  value_eq : value run = n

theorem Decimal.isNumber_iff {width n : Nat} {run : Bytes} :
    IsNumber width run n ↔ n < 10 ^ width ∧ run = digits width n := by
  constructor
  · rintro ⟨hrun, rfl, rfl⟩
    exact ⟨value_lt hrun, (digits_value hrun).symm⟩
  · rintro ⟨hlt, rfl⟩
    exact ⟨isRun_digits width n, length_digits width n, value_digits_of_lt hlt⟩

theorem Decimal.isNumber_digits {width n : Nat} (h : n < 10 ^ width) :
    IsNumber width (digits width n) n :=
  isNumber_iff.2 ⟨h, rfl⟩

namespace Iso8601

open Calendar Decimal

/-- The days of a month: 28 for February, 29 with a leap day, and 30 or 31 for the others. -/
def monthLength (year month : Nat) : Nat :=
  if month = 2 then 28 + leapDay year else if month ∈ [4, 6, 9, 11] then 30 else 31

/-- The text of a date with its zone, with the date and its offset. -/
inductive IsDated : Bytes → Date → Int → Prop
  /-- Four digits, two digits and two digits, which are a date of the calendar. -/
  | ofNumbers {y m d : Nat} {year month day zone : Bytes} {offset : Int}
    (isYear : IsNumber 4 year y) (isMonth : IsNumber 2 month m) (isDay : IsNumber 2 day d)
    (year_range : 1 ≤ y ∧ y ≤ 9999) (month_range : 1 ≤ m ∧ m ≤ 12)
    (day_range : 1 ≤ d ∧ d ≤ monthLength y m) (isZone : IsZone zone offset) :
    IsDated (year ++ '-'.toUInt8 :: month ++ '-'.toUInt8 :: day ++ zone) ⟨y, m, d⟩ offset

section Date

variable {text : Bytes} {d : Date} {offset : Int}

theorem isDated_iff : IsDated text d offset ↔
    d.Valid ∧ ∃ zone, IsZone zone offset ∧ text = dateText d ++ zone := by
  constructor
  · rintro ⟨isYear, isMonth, isDay, hy, hm, hd, hzone⟩
    obtain ⟨-, rfl⟩ := isNumber_iff.1 isYear
    obtain ⟨-, rfl⟩ := isNumber_iff.1 isMonth
    obtain ⟨-, rfl⟩ := isNumber_iff.1 isDay
    rw [monthLength, ← daysInMonth_eq_ite _ hm.1 hm.2] at hd
    exact ⟨⟨hy, hm, hd⟩, _, hzone, rfl⟩
  · rintro ⟨hvalid, zone, hzone, rfl⟩
    obtain ⟨year_fits, month_fits, day_fits⟩ := fits_of_valid_date hvalid
    obtain ⟨hy, hm, hd⟩ := hvalid
    rw [daysInMonth_eq_ite _ hm.1 hm.2] at hd
    exact .ofNumbers (isNumber_digits year_fits) (isNumber_digits month_fits)
      (isNumber_digits day_fits) hy hm hd hzone

end Date

/-- **Texts of dates.** A text is that of a local date exactly if it is `IsDated`, and it then
denotes the date of its numbers with the offset of its zone. The same texts are those of plain
dates, and then denote the date alone. -/
theorem parse_date (text : Bytes) :
    ((∃ z : ZonedDate, parse text = .ok z) ↔ ∃ d offset, IsDated text d offset) ∧
      (∀ z : ZonedDate, parse text = .ok z ↔ IsDated text z.wall z.offset) ∧
      ((∃ d : Date, parse text = .ok d) ↔ ∃ d offset, IsDated text d offset) ∧
      ∀ d : Date, parse text = .ok d ↔ ∃ offset, IsDated text d offset := by
  have hzoned : ∀ z : ZonedDate, parse text = .ok z ↔ IsDated text z.wall z.offset :=
    fun z => mapError_eq_ok_iff.trans (readZonedDate_eq_ok_iff.trans isDated_iff.symm)
  have hplain : ∀ d : Date, parse text = .ok d ↔ ∃ offset, IsDated text d offset := by
    intro d
    refine mapError_eq_ok_iff.trans (readDate_eq_ok_iff.trans ?_)
    constructor
    · rintro ⟨hd, zone, offset, hzone, htext⟩
      exact ⟨offset, isDated_iff.2 ⟨hd, zone, hzone, htext⟩⟩
    · rintro ⟨offset, h⟩
      obtain ⟨hd, zone, hzone, htext⟩ := isDated_iff.1 h
      exact ⟨hd, zone, offset, hzone, htext⟩
  refine ⟨?_, hzoned, exists_congr hplain, hplain⟩
  constructor
  · rintro ⟨z, hz⟩
    exact ⟨z.wall, z.offset, (hzoned z).1 hz⟩
  · rintro ⟨d, offset, h⟩
    exact ⟨⟨d, offset⟩, (hzoned _).2 h⟩

/-- The last hyphen begins the zone. -/
example : parse (Bytes.ofString "2024-02-29-01:30") = .ok (⟨⟨2024, 2, 29⟩, -90⟩ : ZonedDate) := by
  decide +kernel

end Iso8601

end TextCodec
