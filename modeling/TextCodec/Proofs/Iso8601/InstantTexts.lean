import TextCodec.Failure
import TextCodec.Proofs.Iso8601.Texts

/-!
# Texts of instants

A text of an instant is the text of a date, `T` and the text of a time, and it counts the
milliseconds of both from the first instant (`IsInstant`). A local instant is read exactly from
the texts that count up to an instant of the calendar, and an instant in UTC from those for which
this holds of the difference with the offset, too.

The reader does not add up the count. It takes the last clock time before the instant and then
moves on by the delay that no clock shows. `toInstant_eq_ok_iff` says that the two agree.
-/

namespace TextCodec.Iso8601

open Calendar Decimal

/-- The text of an instant, with the milliseconds from the first instant and the offset. -/
def IsInstant (text : Bytes) (count offset : Int) : Prop :=
  ∃ (date : Date) (clock : Bytes) (ms : Nat), date.Valid ∧ IsClock clock ms offset ∧
    text = dateText date ++ 'T'.toUInt8 :: clock ∧
      count = ((date.dayCount : Int) - 1) * 86400000 + ms

section Instant

variable {text : Bytes} {count offset : Int}

theorem IsInstant.nonneg (h : IsInstant text count offset) : 0 ≤ count := by
  obtain ⟨date, clock, ms, hdate, -, -, rfl⟩ := h
  have h1 := Date.one_le_dayCount hdate
  omega

theorem IsInstant.validOffset (h : IsInstant text count offset) : Zoned.ValidOffset offset := by
  obtain ⟨-, clock, ms, -, hclock, -⟩ := h
  exact hclock.validOffset

theorem IsInstant.length_le (h : IsInstant text count offset) : minDateTimeWidth ≤ text.length := by
  obtain ⟨date, clock, ms, -, hclock, rfl, -⟩ := h
  have hlen := hclock.length_le
  rw [List.length_append, length_dateText, List.length_cons]
  unfold minTimeWidth at hlen
  unfold minDateTimeWidth dateWidth
  omega

end Instant

/-! ## Moving on from a clock time -/

namespace TimeFields

/-- The last clock time before the fields. -/
def clock (f : TimeFields) : Time :=
  ⟨f.hourOfDay, f.minute, f.second, if f.millisecond = msPerSecond then 0 else f.millisecond⟩

/-- The delay of the fields after that clock time. -/
def delay (f : TimeFields) : Nat :=
  (if f.isEndOfDay then msPerDay else 0) + f.leapDelay +
    (if f.millisecond = msPerSecond then msPerSecond else 0)

theorem valid_clock_iff {f : TimeFields} (hms : f.millisecond ≤ 1000) :
    f.clock.Valid ↔ f.InRange := by
  have hlt : (if f.millisecond = msPerSecond then 0 else f.millisecond) < 1000 := by
    unfold msPerSecond
    split_ifs <;> omega
  exact valid_iff_inRange hlt

theorem toInt_delay (f : TimeFields) : Span.toInt ⟨Int64.ofNat f.delay⟩ = f.delay := by
  have hleap := f.leapDelay_le
  have hlt : f.delay < 2 ^ 63 := by
    unfold delay msPerSecond
    rw [msPerDay_eq]
    split_ifs <;> omega
  exact Int64.toInt_ofNat_of_lt hlt

/-- The delay makes up for what was changed to get a clock time. -/
theorem sinceMidnight_clock_add_delay (f : TimeFields) :
    f.clock.sinceMidnight + f.delay = f.count := by
  unfold clock delay Time.sinceMidnight count msPerSecond
  rw [msPerDay_eq]
  dsimp only
  rcases hourOfDay_cases f with ⟨h24, h0, hend⟩ | ⟨h24, hsame, hend⟩
  · rw [hend, if_pos rfl]
    split_ifs <;> omega
  · rw [hend, if_neg Bool.false_ne_true]
    split_ifs <;> omega

end TimeFields

section Moving

variable {d : DateFields} {t : TimeFields} {a : DateTime}

theorem add_delay_eq_ok_iff (hms : t.millisecond ≤ 1000) (hrange : t.InRange) {date : Date}
    (hdate : date.Valid) : DateTime.add ⟨date, t.clock⟩ ⟨Int64.ofNat t.delay⟩ = .ok a ↔
      a.Valid ∧ a.milliseconds = ((date.dayCount : Int) - 1) * 86400000 + t.count := by
  have hvalid : DateTime.Valid ⟨date, t.clock⟩ :=
    ⟨hdate, (TimeFields.valid_clock_iff hms).2 hrange⟩
  rw [DateTime.add_eq_ok_iff hvalid, TimeFields.toInt_delay,
    ← TimeFields.sinceMidnight_clock_add_delay]
  unfold DateTime.milliseconds
  rw [msPerDay_eq, Int.natCast_add, Int.add_assoc]
  rfl

/-- The instant of a date and a time is the one at the sum of their counts. -/
theorem toInstant_eq_ok_iff (hms : t.millisecond ≤ 1000) : toInstant d t = .ok a ↔
    ∃ date, d.toDate = .ok date ∧ t.InRange ∧ a.Valid ∧
      a.milliseconds = ((date.dayCount : Int) - 1) * 86400000 + t.count := by
  have heq : toInstant d t = (do
      let date ← d.toDate
      let time ← t.clock.check
      (DateTime.add ⟨date, time⟩ ⟨Int64.ofNat t.delay⟩).mapError fun _ => .instantOutOfRange) := rfl
  rw [heq]
  simp only [bind_eq_ok_iff, mapError_eq_ok_iff, Time.check_eq_ok_iff,
    TimeFields.valid_clock_iff hms]
  constructor
  · rintro ⟨date, hdate, _, ⟨hrange, rfl⟩, h⟩
    obtain ⟨hvalid, rfl⟩ := Date.check_eq_ok_iff.1 hdate
    exact ⟨_, hdate, hrange, (add_delay_eq_ok_iff hms hrange hvalid).1 h⟩
  · rintro ⟨date, hdate, hrange, h⟩
    obtain ⟨hvalid, rfl⟩ := Date.check_eq_ok_iff.1 hdate
    exact ⟨_, hdate, _, ⟨hrange, rfl⟩, (add_delay_eq_ok_iff hms hrange hvalid).2 h⟩

end Moving

/-! ## Readers -/

section Readers

variable {text : Bytes}

/-- A local instant is read from the texts that count up to it and have its offset. -/
theorem readZonedDateTime_eq_ok_iff {z : ZonedDateTime} : readZonedDateTime text = .ok z ↔
    z.wall.Valid ∧ IsInstant text z.wall.milliseconds z.offset := by
  unfold readZonedDateTime
  simp only [bind_eq_ok_iff, expect_eq_ok_iff, checkLength_eq_ok_iff, trailingOffset_eq_ok_iff,
    Zoned.of_eq_ok_iff, literal_eq_some_iff, Prod.exists]
  constructor
  · rintro ⟨_, -, d, _, hd, clock, rfl, t, zone, ht, offset, hzone, _, hend, a, ha, -, rfl⟩
    have hms := millisecond_le_of_timeFields hzone ht
    obtain ⟨date, hdate, hrange, hvalid, hcount⟩ := (toInstant_eq_ok_iff hms).1 ha
    obtain ⟨hdate, -, htext⟩ := dateFields_toDate_iff.1 ⟨d, hd, hdate⟩
    have hclock : IsClock clock t.count offset :=
      isClock_iff.2 ⟨t, zone, ht, hzone, hend, hrange, rfl⟩
    exact ⟨hvalid, date, clock, t.count, hdate, hclock, htext, hcount⟩
  · rintro ⟨hvalid, hinstant⟩
    have hlen := hinstant.length_le
    have hoffset := hinstant.validOffset
    obtain ⟨date, clock, ms, hdate, hclock, htext, hcount⟩ := hinstant
    have hstop : NoDigit ('T'.toUInt8 :: clock) := noDigit_cons (by decide) clock
    obtain ⟨d, hd, hdate⟩ := dateFields_toDate_iff.2 ⟨hdate, hstop, htext⟩
    obtain ⟨t, zone, ht, hzone, hend, hrange, rfl⟩ := isClock_iff.1 hclock
    have hms := millisecond_le_of_timeFields hzone ht
    exact ⟨(), hlen, d, _, hd, clock, rfl, t, zone, ht, z.offset, hzone, (), hend, z.wall,
      (toInstant_eq_ok_iff hms).2 ⟨date, hdate, hrange, hvalid, hcount⟩, hoffset, rfl⟩

/-- An instant in UTC is read from the texts that count up to it plus their offset, if that local
instant is in the calendar, too. -/
theorem readDateTime_eq_ok_iff {a : DateTime} : readDateTime text = .ok a ↔
    a.Valid ∧ ∃ count offset, IsInstant text count offset ∧ count ≤ DateTime.maxMilliseconds ∧
      a.milliseconds = count - 60000 * offset := by
  unfold readDateTime
  simp only [bind_eq_ok_iff, mapError_eq_ok_iff, readZonedDateTime_eq_ok_iff]
  constructor
  · rintro ⟨z, ⟨hwall, hinstant⟩, hutc⟩
    obtain ⟨ha, hcount⟩ := (ZonedDateTime.utc_eq_ok_iff hwall hinstant.validOffset).1 hutc
    exact ⟨ha, _, _, hinstant, DateTime.milliseconds_le hwall, hcount⟩
  · rintro ⟨ha, count, offset, hinstant, hmax, hcount⟩
    obtain ⟨wall, hwall, rfl⟩ := DateTime.exists_milliseconds_eq_iff.2 ⟨hinstant.nonneg, hmax⟩
    exact ⟨⟨wall, offset⟩, ⟨hwall, hinstant⟩,
      (ZonedDateTime.utc_eq_ok_iff hwall hinstant.validOffset).2 ⟨ha, hcount⟩⟩

end Readers

/-- **Texts of instants.** A text is that of a local instant exactly if it counts up to an instant
of the calendar, and it then denotes that instant with its offset. It is that of an instant in UTC
exactly if moreover the count less the offset is that of an instant of the calendar, which it then
denotes. -/
theorem parse_instant (text : Bytes) :
    ((∃ z : ZonedDateTime, parse text = .ok z) ↔
        ∃ count offset, IsInstant text count offset ∧ count ≤ 315537897599999) ∧
      (∀ z : ZonedDateTime, parse text = .ok z ↔
        z.wall.Valid ∧ IsInstant text z.wall.milliseconds z.offset) ∧
      ((∃ a : DateTime, parse text = .ok a) ↔
        ∃ count offset, IsInstant text count offset ∧ count ≤ 315537897599999 ∧
          0 ≤ count - 60000 * offset ∧ count - 60000 * offset ≤ 315537897599999) ∧
      ∀ a : DateTime, parse text = .ok a ↔
        a.Valid ∧ ∃ count offset, IsInstant text count offset ∧ count ≤ 315537897599999 ∧
          a.milliseconds = count - 60000 * offset := by
  have hzoned : ∀ z : ZonedDateTime, parse text = .ok z ↔
      z.wall.Valid ∧ IsInstant text z.wall.milliseconds z.offset :=
    fun z => mapError_eq_ok_iff.trans readZonedDateTime_eq_ok_iff
  have hutc : ∀ a : DateTime, parse text = .ok a ↔
      a.Valid ∧ ∃ count offset, IsInstant text count offset ∧ count ≤ 315537897599999 ∧
        a.milliseconds = count - 60000 * offset :=
    fun a => mapError_eq_ok_iff.trans readDateTime_eq_ok_iff
  refine ⟨?_, hzoned, ?_, hutc⟩
  · constructor
    · rintro ⟨z, hz⟩
      obtain ⟨hwall, hinstant⟩ := (hzoned z).1 hz
      exact ⟨_, _, hinstant, DateTime.milliseconds_le hwall⟩
    · rintro ⟨count, offset, hinstant, hmax⟩
      obtain ⟨wall, hwall, rfl⟩ := DateTime.exists_milliseconds_eq_iff.2 ⟨hinstant.nonneg, hmax⟩
      exact ⟨⟨wall, offset⟩, (hzoned _).2 ⟨hwall, hinstant⟩⟩
  · constructor
    · rintro ⟨a, ha⟩
      obtain ⟨hvalid, count, offset, hinstant, hmax, hcount⟩ := (hutc a).1 ha
      have h0 := DateTime.milliseconds_nonneg hvalid
      have hmax' := DateTime.milliseconds_le hvalid
      rw [hcount] at h0 hmax'
      exact ⟨count, offset, hinstant, hmax, h0, hmax'⟩
    · rintro ⟨count, offset, hinstant, hmax, h0, hmax'⟩
      obtain ⟨a, ha, hcount⟩ := DateTime.exists_milliseconds_eq_iff.2 ⟨h0, hmax'⟩
      exact ⟨a, (hutc a).2 ⟨ha, count, offset, hinstant, hmax, hcount⟩⟩

end TextCodec.Iso8601
