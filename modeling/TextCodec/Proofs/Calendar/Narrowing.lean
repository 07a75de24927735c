import Mathlib.Algebra.Ring.Int.Defs
import Mathlib.Tactic.Common
import TextCodec.Proofs.Calendar.Arithmetic
import TextCodec.Proofs.Calendar.Succession
import TextCodec.Proofs.Guarded

/-!
# Casts and indices

The fields of dates and times are words of 8 and 16 bits that are cut out of wider ones, a day
count is cut to 32 bits, and the months are looked up in a table. Here each operation is repeated
with guards: it ends in `none` where a cast would change its number, where an unsigned difference
would be negative, or where an index is beyond the table.

Each operation `Computes` what it does without guards, and finds nothing but valid values. Of the
dates that it works on it has to be known that they are valid, as the index of their month is only
in bounds then.
-/

namespace TextCodec

namespace Calendar

/-- A signed number, if so many bits are enough for it. -/
def fitSigned? (width : Nat) (n : Int) : Option Int :=
  if -2 ^ (width - 1) ≤ n ∧ n < 2 ^ (width - 1) then some n else none

/-! ## Dates -/

/-- The days of a month, which are looked up as a difference of words of 16 bits and cut to 8. -/
def daysInMonth? (year month : Nat) : Option Nat := do
  let stop ← (monthStarts year)[month]?
  let start ← (monthStarts year)[← sub? month 1]?
  fit? 8 (← sub? stop start)

theorem getElem?_monthStarts (year : Nat) {i : Nat} (h : i < 13) :
    (monthStarts year)[i]? = some (daysBefore year (i + 1)) := by
  rw [← length_monthStarts year] at h
  rw [daysBefore, Nat.add_sub_cancel, List.getD_eq_getElem?_getD, List.getElem?_eq_getElem h,
    Option.getD_some]

theorem daysInMonth?_eq (year : Nat) {month : Nat} (h1 : 1 ≤ month) (h12 : month ≤ 12) :
    daysInMonth? year month = some (daysInMonth year month) := by
  have hdays := daysInMonth_le year h1 h12
  have hle := daysBefore_le year h1 (Nat.le_add_right month 1) (show month + 1 ≤ 13 by omega)
  have hstart := getElem?_monthStarts year (show month - 1 < 13 by omega)
  rw [Nat.sub_add_cancel h1] at hstart
  rw [daysInMonth_eq] at hdays
  unfold daysInMonth?
  rw [bind_of_eq_some (getElem?_monthStarts year (by omega)), sub?_bind h1, bind_of_eq_some hstart,
    sub?_bind hle]
  exact if_pos (by omega)

namespace Date

def check? (d : Date) : Guarded Error Date := do
  if d.year < 1 ∨ 9999 < d.year then throw (.invalidYear d.year)
  else if d.month < 1 ∨ 12 < d.month then throw (.invalidMonth d.month)
  else
    let days ← daysInMonth? d.year d.month
    if d.day < 1 ∨ days < d.day then throw (.invalidMonthDay d.day) else return d

def dayOfYear? (d : Date) : Option Nat := do
  let start ← (monthStarts d.year)[← sub? d.month 1]?
  fit? 16 (start + d.day)

def dayCount? (d : Date) : Option Nat := do
  return daysBeforeYear d.year + (← d.dayOfYear?)

/-- The date with a given day count. -/
def atDayCount? (n : Int) : Guarded Error Date := do
  if n < 1 ∨ (maxDayCount : Int) < n then throw (.invalidDayCount n) else ofDayCount? n

def addDays? (d : Date) (n : Int) : Guarded Error Date := do
  if n = 0 then return d
  else
    let sum := ((← d.dayCount?) : Int) + n
    if sum < 1 ∨ (maxDayCount : Int) < sum then throw .arithmeticOverflow
    else atDayCount? (← fitSigned? 32 sum)

theorem computes_check (d : Date) : Computes d.check? d.check Valid := by
  unfold check? check
  refine .ite (fun _ => .throw _) fun hyear => .ite (fun _ => .throw _) fun hmonth => ?_
  refine .bind_some (daysInMonth?_eq d.year (by omega) (by omega)) ?_
  refine .ite (fun _ => .throw _) fun hday => .pure ?_
  unfold Valid
  omega

theorem computes_atDayCount (n : Int) : Computes (atDayCount? n) (ofDayCount n) Valid := by
  have hvalid : ∀ d, ofDayCount n = .ok d → d.Valid := fun d hd => (ofDayCount_eq_ok_iff.1 hd).1
  refine ⟨?_, hvalid⟩
  unfold atDayCount?
  by_cases hn : n < 1 ∨ (maxDayCount : Int) < n
  · rw [if_pos hn, ofDayCount, if_pos hn]
    rfl
  · obtain ⟨d, hd⟩ := exists_ofDayCount_iff.2 (show 1 ≤ n ∧ n ≤ maxDayCount by omega)
    rw [if_neg hn, ofDayCount?_eq hd, hd]
    rfl

section Valid

variable {d : Date} (h : d.Valid)

include h

theorem dayOfYear?_eq : d.dayOfYear? = some d.dayOfYear := by
  have hle := dayOfYear_le h
  have hleap := leapDay_le d.year
  have hstart := getElem?_monthStarts d.year (show d.month - 1 < 13 by have := h.2.1; omega)
  rw [Nat.sub_add_cancel h.2.1.1] at hstart
  unfold dayOfYear at hle
  unfold dayOfYear?
  rw [sub?_bind h.2.1.1, bind_of_eq_some hstart]
  exact if_pos (by omega)

theorem dayCount?_eq : d.dayCount? = some d.dayCount := by
  unfold dayCount?
  rw [dayOfYear?_eq h]
  rfl

theorem computes_addDays (n : Int) : Computes (d.addDays? n) (d.addDays n) Valid := by
  unfold addDays? addDays
  refine .ite (fun _ => .pure h) fun _ => .bind_some (dayCount?_eq h) ?_
  refine .ite (fun _ => .throw _) fun hsum => ?_
  unfold maxDayCount at hsum
  refine .bind_some (if_pos ?_) (computes_atDayCount _)
  omega

end Valid

end Date

/-! ## Times of day -/

namespace Time

def ofSinceMidnight? (n : Nat) : Option Time := do
  let seconds := n / msPerSecond
  return ⟨← fit? 8 (seconds / 3600), ← fit? 8 (seconds % 3600 / 60), ← fit? 8 (seconds % 60),
    ← fit? 16 (n % msPerSecond)⟩

def addWithDays? (t : Time) (s : Span) : Option (Time × Int) :=
  if s.isZero then some (t, 0)
  else do
    let sum := Span.clamp (t.sinceMidnight + s.toInt)
    return (← ofSinceMidnight? (sum % msPerDay).toNat, sum / msPerDay)

def add? (t : Time) (s : Span) : Option Time := do return (← t.addWithDays? s).1

theorem computes_check (t : Time) :
    Computes (liftM t.check : Guarded Error Time) t.check Valid := by
  refine .lift fun u hu => ?_
  obtain ⟨hvalid, rfl⟩ := check_eq_ok_iff.1 hu
  exact hvalid

theorem ofSinceMidnight?_eq {n : Nat} (h : n < msPerDay) :
    ofSinceMidnight? n = some (ofSinceMidnight n) := by
  rw [msPerDay_eq] at h
  unfold ofSinceMidnight? ofSinceMidnight msPerSecond
  dsimp only
  rw [fit?_bind (by omega), fit?_bind (by omega), fit?_bind (by omega), fit?_bind (by omega)]
  rfl

theorem addWithDays?_eq (t : Time) (s : Span) : t.addWithDays? s = some (t.addWithDays s) := by
  unfold addWithDays? addWithDays
  split_ifs
  · rfl
  · dsimp only
    rw [ofSinceMidnight?_eq (toNat_emod_msPerDay_lt _)]
    rfl

theorem add?_eq (t : Time) (s : Span) : t.add? s = some (t.add s) := by
  unfold add?
  rw [addWithDays?_eq]
  rfl

end Time

/-! ## Instants -/

namespace DateTime

def milliseconds? (a : DateTime) : Option Int := do
  return (((← a.date.dayCount?) : Int) - 1) * msPerDay + a.time.sinceMidnight

def ofMilliseconds? (n : Int) : Guarded Error DateTime := do
  let days := n / msPerDay + 1
  if days < 1 ∨ (Date.maxDayCount : Int) < days then throw .arithmeticOverflow
  else
    let date ← Date.atDayCount? (← fitSigned? 32 days)
    return ⟨date, ← Time.ofSinceMidnight? (n % msPerDay).toNat⟩

def add? (a : DateTime) (s : Span) : Guarded Error DateTime := do
  if s.isZero then return a else ofMilliseconds? ((← a.milliseconds?) + s.toInt)

def sub? (a : DateTime) (s : Span) : Guarded Error DateTime := a.add? s.neg

theorem computes_ofMilliseconds (n : Int) :
    Computes (ofMilliseconds? n) (ofMilliseconds n) Valid := by
  unfold ofMilliseconds? ofMilliseconds
  refine .ite (fun _ => .throw _) fun hdays => ?_
  unfold Date.maxDayCount at hdays
  refine .bind_some (if_pos (by omega)) (.bind (Date.computes_atDayCount _) fun d hd => ?_)
  have htime := toNat_emod_msPerDay_lt n
  exact .bind_some (Time.ofSinceMidnight?_eq htime) (.pure ⟨hd, Time.valid_ofSinceMidnight htime⟩)

section Valid

variable {a : DateTime} (h : a.Valid)

include h

theorem milliseconds?_eq : a.milliseconds? = some a.milliseconds := by
  unfold milliseconds?
  rw [Date.dayCount?_eq h.1]
  rfl

theorem computes_add (s : Span) : Computes (a.add? s) (a.add s) Valid := by
  unfold add? add
  exact .ite (fun _ => .pure h) fun _ =>
    .bind_some (milliseconds?_eq h) (computes_ofMilliseconds _)

theorem computes_sub (s : Span) : Computes (a.sub? s) (a.sub s) Valid := computes_add h s.neg

end Valid

end DateTime

/-! ## Values with an offset -/

namespace Zoned

variable {α : Type}

/-- A value with an offset, of which the local one has a property. -/
def On (P : α → Prop) (z : Zoned α) : Prop := P z.wall ∧ ValidOffset z.offset

theorem computes_of {P : α → Prop} {wall : α} (h : P wall) (offset : Int) :
    Computes (liftM (of wall offset) : Guarded Error (Zoned α)) (of wall offset) (On P) := by
  refine .lift fun z hz => ?_
  obtain ⟨hoffset, rfl⟩ := of_eq_ok_iff.1 hz
  exact ⟨h, hoffset⟩

end Zoned

def ZonedDateTime.utc? (z : ZonedDateTime) : Guarded Error DateTime := do
  z.wall.sub? (← offsetSpan z.offset)

def ZonedDate.utc? (z : ZonedDate) : Guarded Error DateTime := do
  DateTime.sub? ⟨z.wall, .midnight⟩ (← offsetSpan z.offset)

def ZonedTime.utc? (z : ZonedTime) : Option Time :=
  z.wall.add? ⟨Int64.ofInt (z.offset * -msPerMinute)⟩

theorem ZonedDateTime.computes_utc {z : ZonedDateTime} (h : z.wall.Valid) :
    Computes z.utc? z.utc DateTime.Valid :=
  .bind (.step _) fun _ _ => DateTime.computes_sub h _

theorem ZonedDate.computes_utc {z : ZonedDate} (h : z.wall.Valid) :
    Computes z.utc? z.utc DateTime.Valid :=
  .bind (.step _) fun _ _ =>
    DateTime.computes_sub (a := ⟨z.wall, .midnight⟩) ⟨h, show Time.midnight.Valid by decide⟩ _

theorem ZonedTime.utc?_eq (z : ZonedTime) : z.utc? = some z.utc := Time.add?_eq _ _

end Calendar

end TextCodec
