import TextCodec.Proofs.Calendar.DayShifts

/-!
# Times of day and the days they carry

Adding a span to a time of day gives another time and a number of days. The sum is formed in the
range of spans and clamped to it, and what is cut off there is lost (`Time.lost`). Only spans within
a day of the greatest one lose something, and never a day or more.

1. Time, days and what is lost make up the sum (`Time.addWithDays_balance`), so a sum is exact if
   and only if it fits (`Time.addWithDays_exact_iff`).
2. Adding to an instant is adding to its time and carrying the days to its date
   (`DateTime.add_eq_carry`). What is lost does not matter there, since so many days lead out of the
   calendar.
-/

namespace TextCodec.Calendar

namespace Time

/-- The milliseconds by which a sum exceeds the greatest span. -/
def lost (t : Time) (s : Span) : Int := max 0 (t.sinceMidnight + s.toInt - Span.maxMs)

theorem clamp_add_lost (t : Time) (s : Span) :
    Span.clamp (t.sinceMidnight + s.toInt) + t.lost s = t.sinceMidnight + s.toInt := by
  have hmin := s.minMs_le_toInt
  unfold Span.clamp lost
  unfold Span.minMs Span.maxMs at *
  omega

theorem lost_eq_zero_iff (t : Time) (s : Span) :
    t.lost s = 0 ↔ t.sinceMidnight + s.toInt ≤ Span.maxMs := by
  unfold lost
  omega

theorem sinceMidnight_inj {t u : Time} (ht : t.Valid) (hu : u.Valid) :
    t.sinceMidnight = u.sinceMidnight ↔ t = u := by
  refine ⟨fun heq => ?_, congrArg sinceMidnight⟩
  rw [← ofSinceMidnight_sinceMidnight ht, heq, ofSinceMidnight_sinceMidnight hu]

section Sums

variable {t : Time} (h : t.Valid) (s : Span)

include h

/-- Less than a day is lost. -/
theorem lost_bounds : 0 ≤ t.lost s ∧ t.lost s < msPerDay := by
  have hlt := sinceMidnight_lt h
  have hmax := s.toInt_le_maxMs
  unfold lost
  omega

theorem addWithDays_balance :
    ((t.addWithDays s).1.sinceMidnight : Int) + (t.addWithDays s).2 * msPerDay + t.lost s =
      t.sinceMidnight + s.toInt := by
  have hsum := clamp_add_lost t s
  rw [addWithDays_eq h]
  dsimp only
  rw [sinceMidnight_ofSinceMidnight, msPerDay_eq]
  omega

theorem sinceMidnight_add :
    ((t.add s).sinceMidnight : Int) = (t.sinceMidnight + s.toInt - t.lost s) % msPerDay := by
  have hbalance := addWithDays_balance h s
  have hlt := sinceMidnight_lt (valid_add h s)
  rw [msPerDay_eq] at *
  unfold add at *
  omega

/-- Two spans that have a sum are not both so long that something is lost. -/
theorem lost_eq_zero_or {u : Time} (hu : u.Valid) {a b c : Span} (hc : a.add b = .ok c) :
    t.lost a = 0 ∨ u.lost b = 0 := by
  have hsum : c.toInt = a.toInt + b.toInt := Span.ofInt_eq_ok_iff.1 hc
  have hmax := c.toInt_le_maxMs
  have hlt := sinceMidnight_lt h
  have hlt' := sinceMidnight_lt hu
  rw [lost_eq_zero_iff, lost_eq_zero_iff]
  unfold Span.maxMs at *
  rw [msPerDay_eq] at *
  omega

/-- Adding two spans in turn is adding their sum, if and only if the same is lost. -/
theorem add_add_iff {a b c : Span} (hc : a.add b = .ok c) :
    (t.add a).add b = t.add c ↔ t.lost a + (t.add a).lost b = t.lost c := by
  have hvalid := valid_add h a
  have hsum : c.toInt = a.toInt + b.toInt := Span.ofInt_eq_ok_iff.1 hc
  have hfirst := sinceMidnight_add h a
  have hsecond := sinceMidnight_add hvalid b
  have hwhole := sinceMidnight_add h c
  -- the losses are equal up to whole days, and these bounds leave no room for one
  have hone := lost_eq_zero_or h hvalid hc
  have hbounds := lost_bounds h a
  have hbounds' := lost_bounds hvalid b
  have hbounds'' := lost_bounds h c
  rw [← sinceMidnight_inj (valid_add hvalid b) (valid_add h c)]
  rw [msPerDay_eq] at *
  omega

end Sums

/-- **What a sum loses.** A time of day, the days it carries and what is lost make up the sum of the
time and a span, so it is exact if and only if it fits. Two spans in turn lead where their sum does,
if and only if they lose the same as that. So it is in machine words. -/
theorem addWithDays_exact_iff {t : Time} (h : t.Valid) :
    (∀ s : Span,
        let sum := t.addWithDays s
        (sum.1.Valid ∧ t.add s = sum.1) ∧
          (sum.1.sinceMidnight : Int) + sum.2 * msPerDay + t.lost s =
            t.sinceMidnight + s.toInt ∧
          ((sum.1.sinceMidnight : Int) + sum.2 * msPerDay = t.sinceMidnight + s.toInt ↔
            t.sinceMidnight + s.toInt ≤ Span.maxMs) ∧
          (t.addWithDays64 s).1 = sum.1 ∧ (t.addWithDays64 s).2.toInt = sum.2) ∧
      ∀ a b c : Span, a.add b = .ok c →
        ((t.add a).add b = t.add c ↔ t.lost a + (t.add a).lost b = t.lost c) := by
  refine ⟨fun s => ?_, fun a b c hc => add_add_iff h hc⟩
  have hbalance := addWithDays_balance h s
  have hlost := lost_eq_zero_iff t s
  refine ⟨⟨valid_add h s, rfl⟩, hbalance, ?_, addWithDays64_eq h s⟩
  rw [← hlost, ← hbalance]
  omega

/-- One millisecond after midnight, before and after the last span that fits. -/
theorem addWithDays_exact_iff_first_millisecond :
    let t : Time := ⟨0, 0, 0, 1⟩
    let a : Span := ⟨Int64.maxValue⟩
    let b : Span := ⟨-1⟩
    let c : Span := ⟨Int64.maxValue - 1⟩
    (t.Valid ∧ a.add b = .ok c) ∧ (t.lost a = 1 ∧ (t.add a).lost b = 0 ∧ t.lost c = 0) ∧
      (((t.addWithDays c).1.sinceMidnight : Int) + (t.addWithDays c).2 * msPerDay =
          t.sinceMidnight + c.toInt ↔ t.sinceMidnight + c.toInt ≤ Span.maxMs) ∧
      ((t.add a).add b = t.add c ↔ t.lost a + (t.add a).lost b = t.lost c) := by
  intro t a b c
  have hvalid : t.Valid := by decide
  have hsum : a.add b = .ok c := by decide +kernel
  obtain ⟨hexact, hturn⟩ := addWithDays_exact_iff hvalid
  obtain ⟨-, -, hiff, -⟩ := hexact c
  exact ⟨⟨hvalid, hsum⟩, by decide +kernel, hiff, hturn a b c hsum⟩

/-- A sum that does not fit, and two spans that do not lead where their sum does. -/
theorem addWithDays_first_millisecond_ne :
    let t : Time := ⟨0, 0, 0, 1⟩
    let a : Span := ⟨Int64.maxValue⟩
    let b : Span := ⟨-1⟩
    let c : Span := ⟨Int64.maxValue - 1⟩
    t.addWithDays a = (⟨7, 12, 55, 807⟩, 106751991167) ∧
      ((t.addWithDays a).1.sinceMidnight : Int) + (t.addWithDays a).2 * msPerDay ≠
        t.sinceMidnight + a.toInt ∧
      a.add b = .ok c ∧ (t.add a).add b ≠ t.add c := by
  decide +kernel

end Time

namespace DateTime

section Carry

variable {d : Date} {t : Time} (hd : d.Valid)

include hd

/-- A count from the first millisecond of a date splits into days and a time. -/
theorem ofMilliseconds_eq_addDays (n : Int) :
    ofMilliseconds ((d.dayCount - 1) * msPerDay + n) = do
      return ⟨← d.addDays (n / msPerDay), .ofSinceMidnight (n % msPerDay).toNat⟩ := by
  have hdays : ((d.dayCount - 1) * msPerDay + n) / msPerDay + 1 = d.dayCount + n / msPerDay := by
    rw [msPerDay_eq]
    omega
  have hrest : ((d.dayCount - 1) * msPerDay + n) % msPerDay = n % msPerDay := by
    rw [msPerDay_eq]
    omega
  unfold ofMilliseconds
  dsimp only
  rw [hdays, hrest, Date.addDays_eq hd]
  split_ifs
  · rfl
  · rfl

/-- So many days lead out of the calendar from each date. -/
theorem addDays_eq_error_of_maxMs_le {n : Int} (hn : Span.maxMs ≤ n) :
    d.addDays (n / msPerDay) = .error .arithmeticOverflow := by
  have h1 := Date.one_le_dayCount hd
  unfold Span.maxMs at hn
  rw [Date.addDays_eq hd, msPerDay_eq]
  unfold Date.maxDayCount
  exact if_pos (by omega)

theorem add_eq_bind (ht : t.Valid) (s : Span) :
    add ⟨d, t⟩ s = do return ⟨← d.addDays (t.addWithDays s).2, (t.addWithDays s).1⟩ := by
  have hmin := s.minMs_le_toInt
  have hcount : milliseconds ⟨d, t⟩ + s.toInt =
      (d.dayCount - 1) * msPerDay + (t.sinceMidnight + s.toInt) := Int.add_assoc _ _ _
  rw [add_eq_ofMilliseconds ⟨hd, ht⟩, hcount, ofMilliseconds_eq_addDays hd,
    Time.addWithDays_eq ht]
  by_cases hfits : t.sinceMidnight + s.toInt ≤ Span.maxMs
  · have hclamp : Span.clamp (t.sinceMidnight + s.toInt) = t.sinceMidnight + s.toInt := by
      unfold Span.clamp
      omega
    rw [hclamp]
  · have hclamp : Span.maxMs ≤ Span.clamp (t.sinceMidnight + s.toInt) := by
      unfold Span.clamp
      omega
    dsimp only
    rw [addDays_eq_error_of_maxMs_le hd hclamp, addDays_eq_error_of_maxMs_le hd (by omega)]
    rfl

end Carry

/-- **Sums carry their days.** A span is added to an instant by adding it to the time of day and the
days that this carries to the date. If the date cannot take them, the instant cannot either, and the
error is the same, an overflow. So it is in machine words. -/
theorem add_eq_carry {d : Date} {t : Time} (hd : d.Valid) (ht : t.Valid) (s : Span) :
    (∀ later : Date, d.addDays (t.addWithDays s).2 = .ok later →
        add ⟨d, t⟩ s = .ok ⟨later, (t.addWithDays s).1⟩) ∧
      (∀ e : Error, d.addDays (t.addWithDays s).2 = .error e →
        e = .arithmeticOverflow ∧ add ⟨d, t⟩ s = .error e) ∧
      add64 ⟨d, t⟩ s = add ⟨d, t⟩ s ∧
      d.addDays64 (t.addWithDays64 s).2 = d.addDays (t.addWithDays s).2 ∧
      (t.addWithDays64 s).1 = (t.addWithDays s).1 := by
  obtain ⟨htime, hdays⟩ := Time.addWithDays64_eq ht s
  have hsum := add_eq_bind hd ht s
  refine ⟨fun later hlater => ?_, fun e he => ?_, add64_eq ⟨hd, ht⟩ s, ?_, htime⟩
  · rw [hsum, hlater]
    rfl
  · rw [hsum, he]
    exact ⟨Date.eq_arithmeticOverflow_of_addDays hd he, rfl⟩
  · rw [Date.addDays64_eq hd, hdays]

/-- Back over the end of a February, and out of the calendar with a span that a time cannot take. -/
theorem add_eq_carry_leap_day :
    let d : Date := ⟨2024, 3, 1⟩
    let t : Time := ⟨0, 0, 0, 1⟩
    let back : Span := ⟨-2⟩
    let far : Span := ⟨Int64.maxValue⟩
    (d.Valid ∧ t.Valid) ∧
      (t.addWithDays back = (⟨23, 59, 59, 999⟩, -1) ∧
        add ⟨d, t⟩ back = .ok ⟨⟨2024, 2, 29⟩, ⟨23, 59, 59, 999⟩⟩) ∧
      t.lost far = 1 ∧ add ⟨d, t⟩ far = .error .arithmeticOverflow := by
  intro d t back far
  have hd : d.Valid := by decide
  have ht : t.Valid := by decide
  have htime : t.addWithDays back = (⟨23, 59, 59, 999⟩, -1) := by decide +kernel
  have hdate : d.addDays (t.addWithDays back).2 = .ok ⟨2024, 2, 29⟩ := by decide +kernel
  have hback := (add_eq_carry hd ht back).1 _ hdate
  rw [htime] at hback
  have hfar : d.addDays (t.addWithDays far).2 = .error .arithmeticOverflow := by decide +kernel
  exact ⟨⟨hd, ht⟩, ⟨htime, hback⟩, by decide +kernel, ((add_eq_carry hd ht far).2.1 _ hfar).2⟩

end DateTime

end TextCodec.Calendar
