import TextCodec.Proofs.Iso8601.Fields

/-!
# Texts of dates and times

Exactly which texts the readers of dates and of times accept, and what each text denotes.

A text of a time is `IsClock`, with the number of milliseconds that it counts from midnight and its
offset. The count takes the numbers as they are written: second 60 counts 60 seconds, a fraction may
count a whole second, and hour 24 counts a whole day.
-/

namespace TextCodec.Iso8601

open Calendar Decimal

theorem checkLength_eq_ok_iff {text : Bytes} {width : Nat} {u : Unit} :
    checkLength text width = .ok u ↔ width ≤ text.length := by
  unfold checkLength
  constructor
  · intro h
    split_ifs at h with hlt
    exact Nat.le_of_not_lt hlt
  · intro h
    exact if_neg (Nat.not_lt.2 h)

/-! ## Dates -/

section Date

variable {text : Bytes} {z : ZonedDate} {d : Date}

/-- A text of a local date is the text of a valid date, followed by the zone. -/
theorem readZonedDate_eq_ok_iff : readZonedDate text = .ok z ↔
    z.wall.Valid ∧ ∃ zone, IsZone zone z.offset ∧ text = dateText z.wall ++ zone := by
  unfold readZonedDate
  simp only [bind_eq_ok_iff, expect_eq_ok_iff, checkLength_eq_ok_iff, trailingOffset_eq_ok_iff,
    Zoned.of_eq_ok_iff, Prod.exists]
  constructor
  · rintro ⟨_, -, f, zone, hf, d, hd, offset, hzone, -, rfl⟩
    obtain ⟨hvalid, -, htext⟩ := dateFields_toDate_iff.1 ⟨f, hf, hd⟩
    exact ⟨hvalid, zone, hzone, htext⟩
  · rintro ⟨hvalid, zone, hzone, rfl⟩
    obtain ⟨f, hf, hd⟩ := dateFields_toDate_iff.2 ⟨hvalid, hzone.stops.1, rfl⟩
    refine ⟨(), ?_, f, zone, hf, z.wall, hd, z.offset, hzone, hzone.validOffset, rfl⟩
    rw [List.length_append, length_dateText]
    exact Nat.le_add_right _ _

/-- A plain date is read from the same texts. -/
theorem readDate_eq_ok_iff : readDate text = .ok d ↔
    d.Valid ∧ ∃ zone offset, IsZone zone offset ∧ text = dateText d ++ zone := by
  unfold readDate
  simp only [bind_eq_ok_iff, pure_eq_ok_iff, expect_eq_ok_iff, checkLength_eq_ok_iff,
    trailingOffset_eq_ok_iff, Prod.exists]
  constructor
  · rintro ⟨_, -, f, zone, hf, _, hd, offset, hzone, rfl⟩
    obtain ⟨hvalid, -, htext⟩ := dateFields_toDate_iff.1 ⟨f, hf, hd⟩
    exact ⟨hvalid, zone, offset, hzone, htext⟩
  · rintro ⟨hvalid, zone, offset, hzone, rfl⟩
    obtain ⟨f, hf, hd⟩ := dateFields_toDate_iff.2 ⟨hvalid, hzone.stops.1, rfl⟩
    refine ⟨(), ?_, f, zone, hf, d, hd, offset, hzone, rfl⟩
    rw [List.length_append, length_dateText]
    exact Nat.le_add_right _ _

end Date

/-! ## Times -/

/-- The text of a time, with the milliseconds it counts and its offset. -/
inductive IsClock : Bytes → Nat → Int → Prop
  /-- A time of a day, or a leap second. -/
  | ofDay {hour minute second ms : Nat} {fraction zone : Bytes} {offset : Int}
    (hour_le : hour ≤ 23) (minute_le : minute ≤ 59) (second_le : second ≤ 60)
    (isFraction : IsFraction fraction ms) (isZone : IsZone zone offset) :
    IsClock (clockText hour minute second ++ fraction ++ zone)
      (hour * 3600000 + minute * 60000 + second * 1000 + ms) offset
  /-- The end of a day. -/
  | endOfDay {fraction zone : Bytes} (isFraction : IsFraction fraction 0) (isZone : IsZone zone 0) :
    IsClock (clockText 24 0 0 ++ fraction ++ zone) 86400000 0

theorem length_clockText (hour minute second : Nat) :
    (clockText hour minute second).length = minTimeWidth := by
  simp [clockText, minTimeWidth, length_digits]

theorem IsClock.length_le {text : Bytes} {count : Nat} {offset : Int}
    (h : IsClock text count offset) : minTimeWidth ≤ text.length := by
  cases h with
  | ofDay =>
    rw [List.append_assoc, List.length_append, length_clockText]
    exact Nat.le_add_right _ _
  | endOfDay =>
    rw [List.append_assoc, List.length_append, length_clockText]
    exact Nat.le_add_right _ _

theorem IsClock.validOffset {text : Bytes} {count : Nat} {offset : Int}
    (h : IsClock text count offset) : Zoned.ValidOffset offset := by
  cases h with
  | ofDay _ _ _ _ isZone => exact isZone.validOffset
  | endOfDay _ isZone => exact isZone.validOffset

namespace TimeFields

/-- The fields are those of a clock, or hour 24 stands in place of hour 0. -/
structure InRange (f : TimeFields) : Prop where
  hour : f.hour ≤ 24
  minute : f.minute ≤ 59
  second : f.second ≤ 59

/-- The milliseconds that the fields count from midnight. -/
def count (f : TimeFields) : Nat :=
  f.hour * 3600000 + f.minute * 60000 + f.second * 1000 + f.leapDelay + f.millisecond

section Fields

variable {f : TimeFields} {offset : Int}

theorem checkEndOfDay_eq_ok_iff {u : Unit} : f.checkEndOfDay offset = .ok u ↔
    (f.hour = 24 → f.minute = 0 ∧ f.second = 0 ∧ f.millisecond = 0 ∧ f.isLeapSecond = false ∧
      offset = 0) := by
  have hmisplaced :
      (f.minute ≠ 0 ∨ f.second ≠ 0 ∨ f.millisecond ≠ 0 ∨ f.isLeapSecond ∨ offset ≠ 0) ↔
      ¬(f.minute = 0 ∧ f.second = 0 ∧ f.millisecond = 0 ∧ f.isLeapSecond = false ∧ offset = 0) := by
    simp only [ne_eq, not_and_or, Bool.not_eq_false]
  unfold checkEndOfDay isEndOfDay
  simp only [decide_eq_true_eq, hmisplaced]
  constructor
  · intro h h24
    split_ifs at h with hno
    by_contra hne
    exact hno ⟨h24, hne⟩
  · intro h
    exact if_neg fun hno => hno.2 (h hno.1)

theorem hourOfDay_cases (f : TimeFields) :
    f.hour = 24 ∧ f.hourOfDay = 0 ∧ f.isEndOfDay = true ∨
      f.hour ≠ 24 ∧ f.hourOfDay = f.hour ∧ f.isEndOfDay = false := by
  unfold hourOfDay isEndOfDay
  by_cases h : f.hour = 24
  · exact Or.inl ⟨h, if_pos (decide_eq_true h), decide_eq_true h⟩
  · exact Or.inr ⟨h, if_neg (by simpa using h), decide_eq_false h⟩

/-- The fields make a time of day exactly if they are in range. -/
theorem valid_iff_inRange {ms : Nat} (hms : ms < 1000) :
    Time.Valid ⟨f.hourOfDay, f.minute, f.second, ms⟩ ↔ f.InRange := by
  have hhour := hourOfDay_cases f
  unfold Time.Valid
  dsimp only
  constructor
  · intro h
    exact ⟨by omega, by omega, by omega⟩
  · rintro ⟨hh, hm, hs⟩
    omega

theorem leapDelay_le (f : TimeFields) : f.leapDelay ≤ 1000 := by
  unfold leapDelay msPerSecond
  split_ifs <;> omega

/-- The time of day is the count, wrapped around midnight. -/
theorem toTime_eq_ok_iff (hms : f.millisecond ≤ 1000) {t : Time} :
    f.toTime = .ok t ↔ f.InRange ∧ t = .ofSinceMidnight (f.count % msPerDay) := by
  unfold toTime
  simp only [bind_eq_ok_iff, pure_eq_ok_iff, Time.check_eq_ok_iff,
    valid_iff_inRange (show 0 < 1000 by decide)]
  have hadd : f.InRange → Time.add ⟨f.hourOfDay, f.minute, f.second, 0⟩
      ⟨Int64.ofNat (f.millisecond + f.leapDelay)⟩ = .ofSinceMidnight (f.count % msPerDay) := by
    intro h
    have hvalid := (valid_iff_inRange (show 0 < 1000 by decide)).2 h
    have hlt := Time.sinceMidnight_lt hvalid
    have hdelay := leapDelay_le f
    have hspan : Span.toInt ⟨Int64.ofNat (f.millisecond + f.leapDelay)⟩ =
        (f.millisecond + f.leapDelay : Nat) := Int64.toInt_ofNat_of_lt (by omega)
    have hhour := hourOfDay_cases f
    rw [msPerDay_eq] at hlt
    rw [Time.add_eq hvalid (by rw [hspan]; unfold Span.maxMs; omega), hspan]
    have hcount : (((Time.sinceMidnight ⟨f.hourOfDay, f.minute, f.second, 0⟩ : Int) +
        (f.millisecond + f.leapDelay : Nat)) % msPerDay).toNat = f.count % msPerDay := by
      unfold Time.sinceMidnight count msPerSecond
      dsimp only
      rw [msPerDay_eq]
      omega
    rw [hcount]
  constructor
  · rintro ⟨_, ⟨h, rfl⟩, rfl⟩
    exact ⟨h, hadd h⟩
  · rintro ⟨h, rfl⟩
    exact ⟨_, ⟨h, rfl⟩, hadd h⟩

end Fields

end TimeFields

section Clock

variable {text zone : Bytes} {f : TimeFields} {count : Nat} {offset : Int} {t : Time}

theorem millisecond_le_of_timeFields (hzone : IsZone zone offset)
    (h : timeFields text = some (f, zone)) : f.millisecond ≤ 1000 := by
  obtain ⟨hour, minute, second, ms, fraction, -, -, -, hms, -, rfl, -⟩ :=
    (timeFields_eq_some_iff hzone.stops.2).1 h
  have hle := hms.le
  unfold clockFields
  split_ifs
  · exact hle
  · exact hle

/-- The fields that are read from a clock count what its numbers do. -/
theorem count_clockFields (hour minute second ms : Nat) :
    (clockFields hour minute second ms).count =
      hour * 3600000 + minute * 60000 + second * 1000 + ms := by
  unfold clockFields
  by_cases h : second = 60
  · rw [if_pos h]
    simp only [TimeFields.count, TimeFields.leapDelay, msPerSecond, if_true]
    omega
  · rw [if_neg h]
    simp only [TimeFields.count, TimeFields.leapDelay, Bool.false_eq_true, if_false]
    omega

theorem inRange_clockFields {hour minute second ms : Nat} :
    (clockFields hour minute second ms).InRange ↔ hour ≤ 24 ∧ minute ≤ 59 ∧ second ≤ 60 := by
  unfold clockFields
  by_cases h : second = 60
  · rw [if_pos h]
    constructor
    · rintro ⟨hh, hm, -⟩
      exact ⟨hh, hm, by omega⟩
    · rintro ⟨hh, hm, -⟩
      exact ⟨hh, hm, Nat.le_refl 59⟩
  · rw [if_neg h]
    constructor
    · rintro ⟨hh, hm, hs⟩
      exact ⟨hh, hm, Nat.le_succ_of_le hs⟩
    · rintro ⟨hh, hm, hs⟩
      refine ⟨hh, hm, ?_⟩
      show second ≤ 59
      omega

theorem checkEndOfDay_clockFields {hour minute second ms : Nat} {u : Unit} :
    (clockFields hour minute second ms).checkEndOfDay offset = .ok u ↔
      (hour = 24 → minute = 0 ∧ second = 0 ∧ ms = 0 ∧ offset = 0) := by
  rw [TimeFields.checkEndOfDay_eq_ok_iff]
  unfold clockFields
  by_cases h : second = 60
  · simp [h]
  · simp [h]

/-- A text of a time is read as fields in range, where hour 24 stands alone. -/
theorem isClock_iff : IsClock text count offset ↔ ∃ f zone, timeFields text = some (f, zone) ∧
    IsZone zone offset ∧ f.checkEndOfDay offset = .ok () ∧ f.InRange ∧ f.count = count := by
  constructor
  · intro h
    cases h with
    | ofDay hour_le minute_le second_le isFraction isZone =>
      refine ⟨clockFields _ _ _ _, _, (timeFields_eq_some_iff isZone.stops.2).2
        ⟨_, _, _, _, _, by omega, by omega, by omega, isFraction, isZone.stops.1, rfl, rfl⟩, isZone,
        checkEndOfDay_clockFields.2 (by omega), inRange_clockFields.2 (by omega),
        count_clockFields _ _ _ _⟩
    | endOfDay isFraction isZone =>
      refine ⟨clockFields 24 0 0 0, _, (timeFields_eq_some_iff isZone.stops.2).2
        ⟨24, 0, 0, 0, _, by decide, by decide, by decide, isFraction, isZone.stops.1, rfl, rfl⟩,
        isZone, checkEndOfDay_clockFields.2 fun _ => ⟨rfl, rfl, rfl, rfl⟩,
        inRange_clockFields.2 (by decide), count_clockFields _ _ _ _⟩
  · rintro ⟨f, zone, hf, hzone, hend, hrange, rfl⟩
    obtain ⟨hour, minute, second, ms, fraction, -, -, -, hms, -, rfl, rfl⟩ :=
      (timeFields_eq_some_iff hzone.stops.2).1 hf
    rw [count_clockFields]
    rw [checkEndOfDay_clockFields] at hend
    obtain ⟨hh, hm, hs⟩ := inRange_clockFields.1 hrange
    by_cases h24 : hour = 24
    · obtain ⟨rfl, rfl, rfl, rfl⟩ := hend h24
      rw [h24]
      exact .endOfDay hms hzone
    · exact .ofDay (by omega) hm hs hms hzone

/-- A text of a time denotes what it counts, wrapped around midnight. -/
theorem readLocalTime_eq_ok_iff : readLocalTime text = .ok (t, offset) ↔
    ∃ count, IsClock text count offset ∧ t = .ofSinceMidnight (count % msPerDay) := by
  unfold readLocalTime
  simp only [bind_eq_ok_iff, pure_eq_ok_iff, expect_eq_ok_iff, checkLength_eq_ok_iff,
    trailingOffset_eq_ok_iff, Prod.exists, Prod.mk.injEq]
  constructor
  · rintro ⟨_, -, f, zone, hf, offset', hzone, _, hend, t', htime, rfl, rfl⟩
    obtain ⟨hrange, rfl⟩ :=
      (TimeFields.toTime_eq_ok_iff (millisecond_le_of_timeFields hzone hf)).1 htime
    exact ⟨f.count, isClock_iff.2 ⟨f, zone, hf, hzone, hend, hrange, rfl⟩, rfl⟩
  · rintro ⟨_, hclock, rfl⟩
    obtain ⟨f, zone, hf, hzone, hend, hrange, rfl⟩ := isClock_iff.1 hclock
    exact ⟨(), hclock.length_le, f, zone, hf, offset, hzone, (), hend, _,
      (TimeFields.toTime_eq_ok_iff (millisecond_le_of_timeFields hzone hf)).2 ⟨hrange, rfl⟩, rfl,
      rfl⟩

end Clock

end TextCodec.Iso8601
