import Mathlib.Tactic.Common
import TextCodec.Calendar.Date

/-!
# Day counts

The dates of the calendar and the numbers from 1 to `Date.maxDayCount` correspond to each other:
`Date.ofDayCount` finds a date exactly if the date exists and has that count
(`Date.ofDayCount_eq_ok_iff`).

1. The table of months follows one formula from March on (`daysBefore_eq`).
2. Later dates have greater counts (`Date.dayCount_lt`), so no two dates share a count
   (`Date.dayCount_inj`).
3. The year in which a day of an era falls is computed by one division, which is right because each
   leap day comes at the end of its group of years (`Date.marchYear_eq`).
4. Counting up to the date found gives back the day (`Date.dayCount_ofMarchDay`).
-/

namespace TextCodec.Calendar

/-! ## Months -/

/-- The leap days of a year. -/
def leapDay (year : Nat) : Nat := if IsLeap year then 1 else 0

theorem leapDay_cases (year : Nat) :
    IsLeap year ∧ leapDay year = 1 ∨ ¬IsLeap year ∧ leapDay year = 0 := by
  unfold leapDay
  by_cases h : IsLeap year
  · exact Or.inl ⟨h, if_pos h⟩
  · exact Or.inr ⟨h, if_neg h⟩

theorem leapDay_le (year : Nat) : leapDay year ≤ 1 := by
  rcases leapDay_cases year with ⟨-, h⟩ | ⟨-, h⟩ <;> omega

/-- From March on, five months in a row have 153 days. Month 13 stands for the end of the year. -/
theorem daysBefore_eq (year : Nat) {month : Nat} (h1 : 1 ≤ month) (h13 : month ≤ 13) :
    daysBefore year month =
      if month ≤ 2 then 31 * (month - 1) else (153 * (month - 3) + 2) / 5 + 59 + leapDay year := by
  have hleap : ∀ m ≤ 13, 1 ≤ m →
      [0, 31, 60, 91, 121, 152, 182, 213, 244, 274, 305, 335, 366].getD (m - 1) 0 =
        if m ≤ 2 then 31 * (m - 1) else (153 * (m - 3) + 2) / 5 + 59 + 1 := by decide
  have hcommon : ∀ m ≤ 13, 1 ≤ m →
      [0, 31, 59, 90, 120, 151, 181, 212, 243, 273, 304, 334, 365].getD (m - 1) 0 =
        if m ≤ 2 then 31 * (m - 1) else (153 * (m - 3) + 2) / 5 + 59 + 0 := by decide
  unfold daysBefore monthStarts leapDay
  by_cases h : IsLeap year
  · rw [if_pos h, if_pos h]
    exact hleap month h13 h1
  · rw [if_neg h, if_neg h]
    exact hcommon month h13 h1

theorem daysInMonth_eq (year month : Nat) :
    daysInMonth year month = daysBefore year (month + 1) - daysBefore year month := rfl

/-- The months follow each other without a gap. -/
theorem daysBefore_succ (year : Nat) {month : Nat} (h1 : 1 ≤ month) (h12 : month ≤ 12) :
    daysBefore year (month + 1) = daysBefore year month + daysInMonth year month := by
  have hle := leapDay_le year
  rw [daysInMonth_eq, daysBefore_eq year h1 (by omega), daysBefore_eq year (by omega) (by omega)]
  split_ifs <;> omega

theorem daysBefore_le (year : Nat) {m n : Nat} (h1 : 1 ≤ m) (hle : m ≤ n) (h13 : n ≤ 13) :
    daysBefore year m ≤ daysBefore year n := by
  rw [daysBefore_eq year h1 (by omega), daysBefore_eq year (by omega) h13]
  split_ifs <;> omega

/-- Month 13 begins when the year ends. -/
theorem daysBefore_thirteen (year : Nat) : daysBefore year 13 = 365 + leapDay year := by
  rw [daysBefore_eq year (by omega) (by omega), if_neg (by omega)]

theorem daysInMonth_le (year : Nat) {month : Nat} (h1 : 1 ≤ month) (h12 : month ≤ 12) :
    daysInMonth year month ≤ 31 := by
  have hle := leapDay_le year
  rw [daysInMonth_eq, daysBefore_eq year h1 (by omega), daysBefore_eq year (by omega) (by omega)]
  split_ifs <;> omega

namespace Date

/-! ## Dates in order -/

/-- The years follow each other without a gap. -/
theorem daysBeforeYear_succ {year : Nat} (h : 1 ≤ year) :
    daysBeforeYear (year + 1) = daysBeforeYear year + 365 + leapDay year := by
  obtain ⟨n, rfl⟩ : ∃ n, year = n + 1 := ⟨year - 1, by omega⟩
  have h100 : (n + 1) % 400 = 0 → (n + 1) % 100 = 0 := by omega
  have h4 : (n + 1) % 100 = 0 → (n + 1) % 4 = 0 := by omega
  have hcenturies : n / 100 ≤ n / 4 := by omega
  have hleap := leapDay_cases (n + 1)
  unfold IsLeap at hleap
  unfold daysBeforeYear
  simp only [Nat.add_sub_cancel, Nat.succ_div, Nat.dvd_iff_mod_eq_zero]
  split_ifs <;> omega

theorem daysBeforeYear_le {y z : Nat} (h1 : 1 ≤ y) (h : y ≤ z) :
    daysBeforeYear y ≤ daysBeforeYear z := by
  induction h with
  | refl => exact Nat.le_refl _
  | step hz ih =>
    rw [daysBeforeYear_succ (Nat.le_trans h1 hz)]
    omega

section Order

variable {a b d : Date}

theorem dayOfYear_le (h : d.Valid) : d.dayOfYear ≤ 365 + leapDay d.year := by
  obtain ⟨-, ⟨hm, hm'⟩, -, hd'⟩ := h
  have hsucc := daysBefore_succ d.year hm hm'
  have hle := daysBefore_le d.year (m := d.month + 1) (n := 13) (by omega) (by omega) (by omega)
  rw [daysBefore_thirteen] at hle
  unfold dayOfYear
  omega

theorem one_le_dayOfYear (h : d.Valid) : 1 ≤ d.dayOfYear :=
  Nat.le_trans h.2.2.1 (Nat.le_add_left _ _)

/-- The first date comes before the second in the calendar. -/
def Before (a b : Date) : Prop :=
  a.year < b.year ∨ a.year = b.year ∧ (a.month < b.month ∨ a.month = b.month ∧ a.day < b.day)

theorem before_or_eq_or_before (a b : Date) : a.Before b ∨ a = b ∨ b.Before a := by
  rcases a with ⟨y, m, d⟩
  rcases b with ⟨y', m', d'⟩
  simp only [Before, Date.mk.injEq]
  omega

/-- Later dates have greater counts. -/
theorem dayCount_lt (ha : a.Valid) (hb : b.Valid) (h : a.Before b) : a.dayCount < b.dayCount := by
  have hfirst := one_le_dayOfYear hb
  have hlast := dayOfYear_le ha
  obtain ⟨⟨hy, -⟩, ⟨hm, hm'⟩, -, hd'⟩ := ha
  obtain ⟨-, ⟨-, hm''⟩, hd, -⟩ := hb
  unfold dayCount
  rcases h with h | ⟨hyear, h | ⟨hmonth, h⟩⟩
  · have hnext := daysBeforeYear_succ hy
    have hmono := daysBeforeYear_le (show 1 ≤ a.year + 1 by omega) h
    omega
  · have hnext := daysBefore_succ a.year hm hm'
    have hmono := daysBefore_le a.year (show 1 ≤ a.month + 1 by omega) h (by omega)
    unfold dayOfYear
    rw [← hyear]
    omega
  · unfold dayOfYear
    rw [← hyear, ← hmonth]
    omega

/-- No two dates have the same count. -/
theorem dayCount_inj (ha : a.Valid) (hb : b.Valid) (h : a.dayCount = b.dayCount) : a = b := by
  rcases before_or_eq_or_before a b with hlt | heq | hlt
  · have := dayCount_lt ha hb hlt
    omega
  · exact heq
  · have := dayCount_lt hb ha hlt
    omega

theorem one_le_dayCount (h : d.Valid) : 1 ≤ d.dayCount :=
  Nat.le_trans (one_le_dayOfYear h) (Nat.le_add_left _ _)

theorem dayCount_le (h : d.Valid) : d.dayCount ≤ maxDayCount := by
  have hmono := daysBeforeYear_le (z := 10000) h.1.1 (by have := h.1.2; omega)
  have hnext := daysBeforeYear_succ h.1.1
  have hnext' := daysBeforeYear_le (y := d.year + 1) (z := 10000) (by omega)
    (by have := h.1.2; omega)
  have hlast := dayOfYear_le h
  have htotal : daysBeforeYear 10000 = maxDayCount := by decide
  unfold dayCount
  omega

theorem check_eq_ok_iff {e : Date} : d.check = .ok e ↔ d.Valid ∧ d = e := by
  constructor
  · intro h
    unfold check at h
    split_ifs at h with hy hm hd
    cases h
    unfold Valid
    exact ⟨by omega, rfl⟩
  · rintro ⟨h, rfl⟩
    exact check_of_valid h

end Order

/-! ## The year of a day -/

/-- Day `s` of group `k` of four years in century `c` of an era falls in the year of that group
which its days suggest. The day that a fourth year has more does not open a fifth. -/
theorem marchYear_eq {c k s : Nat} (hc : c ≤ 3) (hk : k ≤ 24) (hs : s ≤ 1460)
    (hlast : k = 24 → s < 1460) :
    marchYear (36524 * c + 1461 * k + s) = 100 * c + 4 * k + min (s / 365) 3 := by
  have hyears : (36524 * c + 1461 * k + s) / 1460 = 25 * c + k + (24 * c + k + s) / 1460 := by omega
  have hcentury : (36524 * c + 1461 * k + s) / 36524 = c := by omega
  have hera : (36524 * c + 1461 * k + s) / 146096 = 0 := by omega
  unfold marchYear
  rw [hyears, hcentury, hera]
  omega

/-- A day of an era lies in the year that is found for it. -/
theorem marchYear_spec {n : Nat} (h : n < daysPerEra) :
    marchYear n < 400 ∧ marchYearStart (marchYear n) ≤ n ∧
      n ≤ marchYearStart (marchYear n) + 364 + leapDay (marchYear n + 1) := by
  unfold daysPerEra at h
  by_cases hlast : n = 146096
  -- The leap day that ends an era makes its last century a day longer than the others.
  · subst hlast
    decide
  · obtain ⟨c, k, s, hn, hc, hk, hs, hend⟩ : ∃ c k s, n = 36524 * c + 1461 * k + s ∧ c ≤ 3 ∧
        k ≤ 24 ∧ s ≤ 1460 ∧ (k = 24 → s < 1460) :=
      ⟨n / 36524, n % 36524 / 1461, n % 36524 % 1461, by omega⟩
    rw [hn, marchYear_eq hc hk hs hend]
    have h4 : (100 * c + 4 * k + min (s / 365) 3) / 4 = 25 * c + k := by omega
    have h100 : (100 * c + 4 * k + min (s / 365) 3) / 100 = c := by omega
    have hleap := leapDay_cases (100 * c + 4 * k + min (s / 365) 3 + 1)
    unfold IsLeap at hleap
    unfold marchYearStart
    rw [h4, h100]
    omega

/-! ## The date of a day -/

/-- Counting up to March of a year, by years that begin in March. -/
theorem daysBeforeYear_add_era {year : Nat} (h : year < 400) (era : Nat) :
    daysBeforeYear (year + era * 400 + 1) = era * daysPerEra + marchYearStart year := by
  unfold daysBeforeYear marchYearStart daysPerEra
  omega

theorem daysBefore_add_three (year : Nat) {month : Nat} (h : month ≤ 10) :
    daysBefore year (month + 3) = marchMonthStart month + 59 + leapDay year := by
  rw [daysBefore_eq year (by omega) (by omega), if_neg (by omega), Nat.add_sub_cancel]
  rfl

/-- The date of a day of a month, both counted in years that begin in March. -/
def marchDate (year month day : Nat) : Date :=
  if month < 10 then ⟨year, month + 3, day⟩ else ⟨year + 1, month - 9, day⟩

section MarchDate

variable {year month day : Nat}

/-- January and February of a March year are counted with the calendar year that follows, which puts
them before its leap day. -/
theorem dayCount_marchDate (hm : month < 12) (hy : 1 ≤ year ∨ 10 ≤ month) :
    (marchDate year month day).dayCount + 306 =
      daysBeforeYear (year + 1) + marchMonthStart month + day := by
  unfold marchDate
  by_cases h : month < 10
  · have hyear := daysBeforeYear_succ (show 1 ≤ year by omega)
    have hmonth := daysBefore_add_three year (show month ≤ 10 by omega)
    rw [if_pos h]
    simp only [dayCount, dayOfYear]
    omega
  · have hmonth := daysBefore_eq (year + 1) (show 1 ≤ month - 9 by omega) (by omega)
    rw [if_pos (by omega)] at hmonth
    rw [if_neg h]
    simp only [dayCount, dayOfYear, marchMonthStart]
    omega

theorem valid_marchDate (hm : month < 12) (hyear : 1 ≤ year ∨ 10 ≤ month)
    (hyear' : year < 9999 ∨ year = 9999 ∧ month < 10) (hday : 1 ≤ day)
    (hmonth : marchMonthStart month + day ≤ marchMonthStart (month + 1))
    (hlast : marchMonthStart month + day ≤ 365 + leapDay (year + 1)) :
    (marchDate year month day).Valid := by
  unfold marchDate
  by_cases h : month < 10
  · have hstart := daysBefore_add_three year (show month ≤ 10 by omega)
    have hend := daysBefore_add_three year (show month + 1 ≤ 10 by omega)
    rw [if_pos h]
    refine ⟨by dsimp only; omega, by dsimp only; omega, hday, ?_⟩
    show day ≤ daysBefore year (month + 1 + 3) - daysBefore year (month + 3)
    omega
  · have hstart := daysBefore_eq (year + 1) (show 1 ≤ month - 9 by omega) (by omega)
    have hend := daysBefore_eq (year + 1) (show 1 ≤ month - 9 + 1 by omega) (by omega)
    rw [if_neg h]
    refine ⟨by dsimp only; omega, by dsimp only; omega, hday, ?_⟩
    show day ≤ daysBefore (year + 1) (month - 9 + 1) - daysBefore (year + 1) (month - 9)
    unfold marchMonthStart at hmonth hlast
    rw [hstart, hend]
    split_ifs <;> omega

end MarchDate

/-- The date that is found for a day has that day, and lies within its month and its year. -/
theorem ofMarchDay_spec (n : Nat) : ∃ year month day, ofMarchDay n = marchDate year month day ∧
    month < 12 ∧ 1 ≤ day ∧ n + 1 = daysBeforeYear (year + 1) + marchMonthStart month + day ∧
      marchMonthStart month + day ≤ marchMonthStart (month + 1) ∧
      marchMonthStart month + day ≤ 365 + leapDay (year + 1) := by
  have hera : n % daysPerEra < daysPerEra := Nat.mod_lt _ (by decide)
  obtain ⟨hyear, hstart, hend⟩ := marchYear_spec hera
  have hcount := daysBeforeYear_add_era hyear (n / daysPerEra)
  have hsplit : n / daysPerEra * daysPerEra + n % daysPerEra = n := Nat.div_add_mod' _ _
  refine ⟨_, _, _, rfl, ?_⟩
  have hleap : leapDay (marchYear (n % daysPerEra) + n / daysPerEra * 400 + 1) =
      leapDay (marchYear (n % daysPerEra) + 1) := by
    unfold leapDay IsLeap
    congr 1
    simp only [eq_iff_iff]
    omega
  rw [hcount, hleap]
  have hle := leapDay_le (marchYear (n % daysPerEra) + 1)
  generalize leapDay (marchYear (n % daysPerEra) + 1) = leap at *
  unfold marchMonth marchMonthStart
  omega

/-- Counting up to the date that was found for a day gives back the day. -/
theorem ofMarchDay_valid {n : Nat} (h : 306 ≤ n) (h' : n ≤ maxDayCount + 305) :
    (ofMarchDay n).Valid ∧ (ofMarchDay n).dayCount + 305 = n := by
  obtain ⟨year, month, day, heq, hmonth, hday, hn, hm, hy⟩ := ofMarchDay_spec n
  have hle := leapDay_le (year + 1)
  have hfirst : 1 ≤ year ∨ 10 ≤ month := by
    by_contra hno
    unfold daysBeforeYear marchMonthStart at *
    omega
  have hlast : year < 9999 ∨ year = 9999 ∧ month < 10 := by
    by_contra hno
    unfold daysBeforeYear marchMonthStart maxDayCount at *
    omega
  have hcount : (marchDate year month day).dayCount + 306 = _ := dayCount_marchDate hmonth hfirst
  rw [heq]
  exact ⟨valid_marchDate hmonth hfirst hlast hday hm hy, by omega⟩

/-! ## The correspondence -/

/-- A count is the count of one date at most, and it is found if there is one. -/
theorem ofDayCount_eq_ok_iff {n : Int} {d : Date} :
    ofDayCount n = .ok d ↔ d.Valid ∧ (d.dayCount : Int) = n := by
  unfold ofDayCount
  constructor
  · intro h
    split_ifs at h with hn
    cases h
    obtain ⟨hvalid, hcount⟩ := ofMarchDay_valid (n := n.toNat + 305) (by omega) (by omega)
    exact ⟨hvalid, by omega⟩
  · rintro ⟨hvalid, rfl⟩
    have h1 := one_le_dayCount hvalid
    have hmax := dayCount_le hvalid
    obtain ⟨hfound, hcount⟩ := ofMarchDay_valid (n := d.dayCount + 305) (by omega) (by omega)
    rw [if_neg (by omega), Int.toNat_natCast, dayCount_inj hfound hvalid (by omega)]

/-- The counts that have a date. -/
theorem exists_dayCount_eq {n : Int} (h1 : 1 ≤ n) (hmax : n ≤ maxDayCount) :
    ∃ d : Date, d.Valid ∧ (d.dayCount : Int) = n := by
  have hok : ofDayCount n = .ok (ofMarchDay (n.toNat + 305)) := if_neg (by omega)
  exact ⟨_, ofDayCount_eq_ok_iff.1 hok⟩

/-- Adding no days is no exception. -/
theorem addDays_eq {d : Date} (h : d.Valid) (n : Int) :
    d.addDays n =
      if (d.dayCount : Int) + n < 1 ∨ (maxDayCount : Int) < d.dayCount + n then
        .error .arithmeticOverflow
      else ofDayCount (d.dayCount + n) := by
  have h1 := one_le_dayCount h
  have hmax := dayCount_le h
  unfold addDays
  by_cases h0 : n = 0
  · rw [if_pos h0, h0, Int.add_zero, if_neg (by omega), ofDayCount_eq_ok_iff.2 ⟨h, rfl⟩]
  · exact if_neg h0

end Date

end TextCodec.Calendar
