import TextCodec.Proofs.Calendar.Arithmetic
import TextCodec.Proofs.Calendar.Succession
import TextCodec.Proofs.Iso8601.ClockTexts
import TextCodec.Proofs.Iso8601.InstantTexts

/-!
# Times in texts of instants

A time stands alone or after a date and `T`. It is read in two ways: alone it is wrapped around
midnight, and after a date it moves the date on. The two agree (`parse_append_clock`): they refuse
the same times for the same reason, and find the same time of day, on the date itself or on the
next.

1. Up to the judgement of hour 24 both read the same (`readClock`).
2. They refuse the same fields (`instantOn_of_toTime_eq_error`).
3. Fields in range stay below two days, so that the date moves by one day at most
   (`instantOn_eq_ite`).
-/

namespace TextCodec

/-- The failure of a text of an instant, given that of its time. A text that is too short is
measured as a whole. -/
def Failure.inInstant (time : Bytes) : Failure → Failure
  | .calendar (.shortText _ _) => .calendar (.shortText 19 (time.length + 11))
  | e => e

namespace Iso8601

open Calendar Decimal

/-! ## What both readers begin with -/

/-- The fields of a time and its offset, with hour 24 judged. -/
def readClock (text : Bytes) : Except Error (TimeFields × Int) := do
  let (fields, rest) ← expect .malformedText (timeFields text)
  let offset ← trailingOffset rest
  fields.checkEndOfDay offset
  return (fields, offset)

/-- The instant of a time on a date. -/
def instantOn (d : Date) (t : TimeFields) : Except Error DateTime := do
  let time ← t.clock.check
  (DateTime.add ⟨d, time⟩ ⟨Int64.ofNat t.delay⟩).mapError fun _ => .instantOutOfRange

/-- A local time from a text of enough length. -/
def readAlone (text : Bytes) : Except Error ZonedTime := do
  let (fields, offset) ← readClock text
  Zoned.of (← fields.toTime) offset

/-- A local instant from its date and the text of its time. -/
def readOnDate (d : Date) (text : Bytes) : Except Error ZonedDateTime := do
  let (fields, offset) ← readClock text
  Zoned.of (← instantOn d fields) offset

theorem readZonedTime_eq (text : Bytes) :
    readZonedTime text = checkLength text minTimeWidth >>= fun _ => readAlone text := by
  unfold readZonedTime readLocalTime readAlone readClock
  simp only [bind_assoc, pure_bind]

theorem toInstant_eq (d : DateFields) (t : TimeFields) :
    toInstant d t = d.toDate >>= fun date => instantOn date t := rfl

/-- Both parts of an instant are read before their fields are checked. -/
theorem readZonedDateTime_eq_readClock (text : Bytes) : readZonedDateTime text = (do
    checkLength text minDateTimeWidth
    let (fields, rest) ← expect .malformedText (dateFields text)
    let rest ← expect .malformedText (literal 'T'.toUInt8 rest)
    let (time, offset) ← readClock rest
    let date ← fields.toDate
    Zoned.of (← instantOn date time) offset) := by
  unfold readZonedDateTime readClock
  simp only [bind_assoc, pure_bind, toInstant_eq]

theorem readZonedDateTime_eq {d : Date} (hd : d.Valid) (text : Bytes) :
    readZonedDateTime (dateText d ++ 'T'.toUInt8 :: text) =
      checkLength (dateText d ++ 'T'.toUInt8 :: text) minDateTimeWidth >>= fun _ =>
        readOnDate d text := by
  have hstop : NoDigit ('T'.toUInt8 :: text) := noDigit_cons (by decide) text
  obtain ⟨f, hf, hdate⟩ := dateFields_toDate_iff.2 ⟨hd, hstop, rfl⟩
  rw [readZonedDateTime_eq_readClock, hf]
  congr 1
  funext _
  show (do
    let (time, offset) ← readClock text
    let date ← f.toDate
    Zoned.of (← instantOn date time) offset) = _
  rw [hdate]
  rfl

theorem readClock_eq_ok_iff {text : Bytes} {f : TimeFields} {offset : Int} :
    readClock text = .ok (f, offset) ↔ ∃ zone, timeFields text = some (f, zone) ∧
      IsZone zone offset ∧ f.checkEndOfDay offset = .ok () := by
  unfold readClock
  simp only [bind_eq_ok_iff, pure_eq_ok_iff, expect_eq_ok_iff, trailingOffset_eq_ok_iff,
    Prod.exists, Prod.mk.injEq]
  constructor
  · rintro ⟨_, zone, hf, _, hzone, _, hend, rfl, rfl⟩
    exact ⟨zone, hf, hzone, hend⟩
  · rintro ⟨zone, hf, hzone, hend⟩
    exact ⟨f, zone, hf, offset, hzone, (), hend, rfl, rfl⟩

theorem isClock_iff_readClock {text : Bytes} {count : Nat} {offset : Int} :
    IsClock text count offset ↔
      ∃ f, readClock text = .ok (f, offset) ∧ f.InRange ∧ f.count = count := by
  simp only [isClock_iff, readClock_eq_ok_iff]
  constructor
  · rintro ⟨f, zone, hf, hzone, hend, hrange, hcount⟩
    exact ⟨f, ⟨zone, hf, hzone, hend⟩, hrange, hcount⟩
  · rintro ⟨f, ⟨zone, hf, hzone, hend⟩, hrange, hcount⟩
    exact ⟨f, zone, hf, hzone, hend, hrange, hcount⟩

/-- A text counts one number. -/
theorem IsClock.count_unique {text : Bytes} {m n : Nat} {offset offset' : Int}
    (hm : IsClock text m offset) (hn : IsClock text n offset') : m = n := by
  obtain ⟨f, hf, -, rfl⟩ := isClock_iff_readClock.1 hm
  obtain ⟨f', hf', -, rfl⟩ := isClock_iff_readClock.1 hn
  rw [hf, Except.ok.injEq, Prod.mk.injEq] at hf'
  rw [hf'.1]

/-! ## Refusals -/

section Refusals

variable {text : Bytes} {f : TimeFields} {e : Error}

/-- Whether a time is refused, and why, does not depend on its milliseconds. -/
theorem check_eq_map {hour minute second ms : Nat} (h : ms < 1000) :
    Time.check ⟨hour, minute, second, ms⟩ =
      (Time.check ⟨hour, minute, second, 0⟩).map fun t => { t with millisecond := ms } := by
  have hms : ¬999 < ms := by omega
  have hzero : ¬999 < 0 := by omega
  unfold Time.check
  rw [if_neg hms, if_neg hzero]
  split_ifs <;> rfl

/-- Fields that make no time of day make no instant either, for the same reason. -/
theorem instantOn_of_toTime_eq_error (hms : f.millisecond ≤ 1000) (h : f.toTime = .error e)
    (d : Date) : instantOn d f = .error e := by
  have hcheck : Time.check ⟨f.hourOfDay, f.minute, f.second, 0⟩ = .error e := by
    unfold TimeFields.toTime at h
    rcases bind_eq_error_iff.1 h with h | ⟨t, -, h⟩
    · exact h
    · cases h
  have hclock : f.clock.check = .error e := by
    unfold TimeFields.clock
    rw [check_eq_map, hcheck]
    · rfl
    · unfold msPerSecond
      split_ifs <;> omega
  unfold instantOn
  rw [hclock]
  rfl

/-- Only the length of a text is ever measured, and only once. -/
theorem readClock_ne_shortText {m n : Nat} : readClock text ≠ .error (.shortText m n) := by
  intro h
  unfold readClock at h
  rcases bind_eq_error_iff.1 h with h | ⟨⟨f, rest⟩, -, h⟩
  · cases hf : timeFields text <;> rw [hf] at h <;> cases h
  rcases bind_eq_error_iff.1 h with h | ⟨offset, -, h⟩
  · unfold trailingOffset at h
    split at h
    · cases h
    · split at h <;> cases h
  rcases bind_eq_error_iff.1 h with h | ⟨_, -, h⟩
  · unfold TimeFields.checkEndOfDay at h
    split_ifs at h
    cases h
  · cases h

theorem toTime_ne_shortText {m n : Nat} : f.toTime ≠ .error (.shortText m n) := by
  intro h
  unfold TimeFields.toTime at h
  rcases bind_eq_error_iff.1 h with h | ⟨t, -, h⟩
  · unfold Time.check at h
    split_ifs at h <;> cases h
  · cases h

/-- What is refused alone is refused after a date. -/
theorem readOnDate_of_error (h : readAlone text = .error e) (d : Date) :
    readOnDate d text = .error e ∧ ∀ m n, e ≠ .shortText m n := by
  unfold readAlone at h
  unfold readOnDate
  rcases bind_eq_error_iff.1 h with hread | ⟨⟨f, offset⟩, hread, h⟩
  · rw [hread]
    refine ⟨rfl, ?_⟩
    rintro m n rfl
    exact readClock_ne_shortText hread
  · obtain ⟨zone, hf, hzone, -⟩ := readClock_eq_ok_iff.1 hread
    rcases bind_eq_error_iff.1 h with htime | ⟨t, -, hoffset⟩
    · have hms := millisecond_le_of_timeFields hzone hf
      rw [hread]
      refine ⟨?_, ?_⟩
      · show (instantOn d f >>= _) = _
        rw [instantOn_of_toTime_eq_error hms htime]
        rfl
      · rintro m n rfl
        exact toTime_ne_shortText htime
    · rw [Zoned.of, if_pos hzone.validOffset] at hoffset
      cases hoffset

theorem length_append_clock (d : Date) (text : Bytes) :
    (dateText d ++ 'T'.toUInt8 :: text).length = text.length + 11 := by
  rw [List.length_append, length_dateText, List.length_cons]
  unfold dateWidth
  omega

/-- A time that is refused alone is refused in a text of an instant. -/
theorem parse_append_of_error {d : Date} (hd : d.Valid) (h : readZonedTime text = .error e) :
    (parse (dateText d ++ 'T'.toUInt8 :: text) : Except Failure ZonedDateTime) =
      .error ((Failure.calendar e).inInstant text) := by
  refine mapError_eq_error_iff.2 ?_
  show ∃ e', readZonedDateTime (dateText d ++ 'T'.toUInt8 :: text) = .error e' ∧ _
  rw [readZonedTime_eq] at h
  rw [readZonedDateTime_eq hd]
  unfold checkLength at h ⊢
  rw [length_append_clock]
  by_cases hshort : text.length < minTimeWidth
  · rw [if_pos hshort] at h
    rw [if_pos (show text.length + 11 < minDateTimeWidth from Nat.add_lt_add_right hshort 11)]
    cases h
    exact ⟨_, rfl, rfl⟩
  · have hlong : ¬text.length + 11 < minDateTimeWidth :=
      fun h => hshort (Nat.lt_of_add_lt_add_right h)
    rw [if_neg hshort] at h
    rw [if_neg hlong]
    obtain ⟨hread, hne⟩ := readOnDate_of_error h d
    refine ⟨e, hread, ?_⟩
    unfold Failure.inInstant
    split
    · next m n heq => exact absurd (Failure.calendar.inj heq) (hne m n)
    · rfl

end Refusals

/-! ## Times on a date -/

section OnDate

variable {d : Date} (hd : d.Valid)

theorem TimeFields.InRange.count_lt {f : TimeFields} (h : f.InRange)
    (hms : f.millisecond ≤ 1000) : f.count < 2 * msPerDay := by
  have hleap := f.leapDelay_le
  have hhour := h.hour
  have hminute := h.minute
  have hsecond := h.second
  unfold TimeFields.count
  rw [msPerDay_eq]
  omega

include hd

theorem dayCount_lt_of_ne_last (hlast : d ≠ .last) : d.dayCount < Date.maxDayCount := by
  have hle := Date.dayCount_le hd
  have hne : d.dayCount ≠ Date.maxDayCount := fun h =>
    hlast (Date.dayCount_inj hd (by decide) (h.trans (by decide)))
  omega

/-- The instant of fields in range has the time of day that they denote alone, and falls on the date
or, if they count a whole day, on the next. -/
theorem instantOn_eq_ite {f : TimeFields} (hrange : f.InRange) (hms : f.millisecond ≤ 1000) :
    instantOn d f =
      let time := Time.ofSinceMidnight (f.count % msPerDay)
      if f.count < msPerDay then .ok ⟨d, time⟩
      else if d = .last then .error .instantOutOfRange
      else .ok ⟨d.next, time⟩ := by
  have hclock := (TimeFields.valid_clock_iff hms).2 hrange
  have hlt := hrange.count_lt hms
  have htime : (Time.ofSinceMidnight (f.count % msPerDay)).Valid :=
    Time.valid_ofSinceMidnight (Nat.mod_lt _ (by decide))
  have hstart : instantOn d f =
      (DateTime.add ⟨d, f.clock⟩ ⟨Int64.ofNat f.delay⟩).mapError fun _ => .instantOutOfRange := by
    unfold instantOn
    rw [Time.check_of_valid hclock]
    rfl
  have hadd : ∀ a : DateTime, a.Valid →
      a.milliseconds = ((d.dayCount : Int) - 1) * 86400000 + f.count → instantOn d f = .ok a := by
    intro a ha hcount
    rw [hstart, (add_delay_eq_ok_iff hms hrange hd).2 ⟨ha, hcount⟩]
    rfl
  dsimp only
  split_ifs with hday hlast
  · refine hadd _ ⟨hd, htime⟩ ?_
    unfold DateTime.milliseconds
    dsimp only
    rw [Time.sinceMidnight_ofSinceMidnight, Nat.mod_eq_of_lt hday]
    rfl
  · rw [hstart]
    cases hsum : DateTime.add ⟨d, f.clock⟩ ⟨Int64.ofNat f.delay⟩ with
    | error e => rfl
    | ok a =>
      obtain ⟨ha, hcount⟩ := (add_delay_eq_ok_iff hms hrange hd).1 hsum
      have hmax := DateTime.milliseconds_le ha
      have hlastCount : d.dayCount = Date.maxDayCount := by rw [hlast]; decide
      rw [hcount, hlastCount] at hmax
      unfold Date.maxDayCount DateTime.maxMilliseconds at hmax
      rw [msPerDay_eq] at hday
      omega
  · have hnext := Date.dayCount_next hd
    refine hadd _ ⟨Date.valid_next hd (dayCount_lt_of_ne_last hd hlast), htime⟩ ?_
    unfold DateTime.milliseconds
    dsimp only
    rw [Time.sinceMidnight_ofSinceMidnight, hnext]
    rw [msPerDay_eq] at *
    omega

/-- A time that is read alone is read on its date. -/
theorem readOnDate_of_readClock {text : Bytes} {f : TimeFields} {offset : Int}
    (h : readClock text = .ok (f, offset)) (hrange : f.InRange) : readOnDate d text =
      let time := Time.ofSinceMidnight (f.count % msPerDay)
      if f.count < msPerDay then .ok ⟨⟨d, time⟩, offset⟩
      else if d = .last then .error .instantOutOfRange
      else .ok ⟨⟨d.next, time⟩, offset⟩ := by
  obtain ⟨zone, hf, hzone, -⟩ := readClock_eq_ok_iff.1 h
  have hms := millisecond_le_of_timeFields hzone hf
  have hof : ∀ a : DateTime, Zoned.of a offset = .ok ⟨a, offset⟩ := fun a =>
    Zoned.of_eq_ok_iff.2 ⟨hzone.validOffset, rfl⟩
  unfold readOnDate
  rw [h]
  show (instantOn d f >>= fun a => Zoned.of a offset) = _
  rw [instantOn_eq_ite hd hrange hms]
  dsimp only
  split_ifs
  · exact hof _
  · rfl
  · exact hof _

end OnDate

/-- The text of a date alone is as long as every date, and has no zone. -/
theorem eq_dateText_of_parse {text : Bytes} {d : Date} (hlen : text.length = 10)
    (h : parse text = .ok d) : d.Valid ∧ text = dateText d := by
  obtain ⟨hvalid, zone, offset, -, rfl⟩ := readDate_eq_ok_iff.1 (mapError_eq_ok_iff.1 h)
  rw [List.length_append, length_dateText] at hlen
  have hzone : zone = [] := List.length_eq_zero_iff.1 (by unfold dateWidth at hlen; omega)
  rw [hzone, List.append_nil]
  exact ⟨hvalid, rfl⟩

/-- **A time is read alike alone and after a date.** What is refused alone is refused after a date
for the same reason. What is read alone is found at the same time of day, with the same offset, on
the date itself or, exactly if the fields reach the end of the day, on the next date, which only the
last date of the calendar does not have. -/
theorem parse_append_clock {date text : Bytes} {d : Date} (hlen : date.length = 10)
    (hdate : parse date = .ok d) :
    (∀ e, (parse text : Except Failure ZonedTime) = .error e →
      (parse (date ++ 'T'.toUInt8 :: text) : Except Failure ZonedDateTime) =
        .error (e.inInstant text)) ∧
    ∀ z : ZonedTime, parse text = .ok z →
      ∃ count, IsClock text count z.offset ∧ (∀ n, IsClock text n z.offset → n = count) ∧
        parse (date ++ 'T'.toUInt8 :: text) =
          if count < 86400000 then .ok (⟨⟨d, z.wall⟩, z.offset⟩ : ZonedDateTime)
          else if d = ⟨9999, 12, 31⟩ then .error (.calendar .instantOutOfRange)
          else .ok ⟨⟨d.next, z.wall⟩, z.offset⟩ := by
  obtain ⟨hd, rfl⟩ := eq_dateText_of_parse hlen hdate
  refine ⟨fun e he => ?_, fun z hz => ?_⟩
  · obtain ⟨e', he', rfl⟩ := mapError_eq_error_iff.1 he
    exact parse_append_of_error hd he'
  · obtain ⟨count, hclock, hwall⟩ := readZonedTime_eq_ok_iff.1 (mapError_eq_ok_iff.1 hz)
    refine ⟨count, hclock, fun n hn => hn.count_unique hclock, ?_⟩
    have hlength : checkLength (dateText d ++ 'T'.toUInt8 :: text) minDateTimeWidth = .ok () := by
      rw [checkLength_eq_ok_iff, length_append_clock]
      exact Nat.add_le_add_right hclock.length_le 11
    obtain ⟨f, hread, hrange, rfl⟩ := isClock_iff_readClock.1 hclock
    show Except.mapError _ (readZonedDateTime _) = _
    rw [readZonedDateTime_eq hd, hlength]
    show Except.mapError _ (readOnDate d text) = _
    rw [readOnDate_of_readClock hd hread hrange, hwall]
    dsimp only
    show _ = if f.count < msPerDay then _ else if d = .last then _ else _
    split_ifs <;> rfl

/-- A leap second at the end of a year falls on the first date of the next. -/
theorem parse_append_leap_second :
    ((dateText ⟨2016, 12, 31⟩).length = 10 ∧
      parse (dateText ⟨2016, 12, 31⟩) = .ok (⟨2016, 12, 31⟩ : Date)) ∧
    parse (dateText ⟨2016, 12, 31⟩ ++ 'T'.toUInt8 :: clockText 23 59 60) =
      .ok (⟨⟨⟨2017, 1, 1⟩, .midnight⟩, 0⟩ : ZonedDateTime) := by
  have hlen : (dateText ⟨2016, 12, 31⟩).length = 10 := length_dateText _
  have hdate : parse (dateText ⟨2016, 12, 31⟩) = .ok (⟨2016, 12, 31⟩ : Date) := by decide
  have hclock : IsClock (clockText 23 59 60 ++ [] ++ []) 86400000 0 :=
    .ofDay (by decide) (by decide) (by decide) .absent .absent
  have hz : parse (clockText 23 59 60) = .ok (⟨.midnight, 0⟩ : ZonedTime) := by decide
  obtain ⟨count, -, hunique, hparse⟩ := (parse_append_clock hlen hdate).2 _ hz
  rw [← hunique 86400000 hclock] at hparse
  exact ⟨⟨hlen, hdate⟩, hparse⟩

end Iso8601

end TextCodec
