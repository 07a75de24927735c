import TextCodec.Calendar.Zoned
import TextCodec.Proofs.Calendar.DayCount
import TextCodec.Proofs.Success

/-!
# Instants and their counts

The valid instants and the numbers from 0 to `DateTime.maxMilliseconds` correspond to each other,
and arithmetic on instants is arithmetic on these numbers: an operation gives the instant with the
right count if there is one, and otherwise fails.
-/

namespace TextCodec.Calendar

/-! ## Times of day -/

theorem msPerDay_eq : msPerDay = 86400000 := rfl

theorem toNat_emod_msPerDay_lt (n : Int) : (n % msPerDay).toNat < msPerDay := by
  rw [msPerDay_eq]
  omega

namespace Time

variable {t : Time}

theorem check_eq_ok_iff {u : Time} : t.check = .ok u ↔ t.Valid ∧ t = u := by
  constructor
  · intro h
    unfold check at h
    split_ifs at h with hh hm hs hms
    cases h
    unfold Valid
    exact ⟨by omega, rfl⟩
  · rintro ⟨h, rfl⟩
    exact check_of_valid h

/-- The shortcut for the empty span changes nothing. -/
theorem addWithDays_eq (h : t.Valid) (s : Span) :
    t.addWithDays s =
      (ofSinceMidnight (Span.clamp (t.sinceMidnight + s.toInt) % msPerDay).toNat,
        Span.clamp (t.sinceMidnight + s.toInt) / msPerDay) := by
  unfold addWithDays
  split_ifs with hzero
  · have hlt := sinceMidnight_lt h
    rw [msPerDay_eq] at hlt ⊢
    have hsum : Span.clamp (t.sinceMidnight + 0) = t.sinceMidnight := by
      unfold Span.clamp Span.minMs Span.maxMs
      omega
    have htime : ((t.sinceMidnight : Int) % 86400000).toNat = t.sinceMidnight := by omega
    have hdays : (t.sinceMidnight : Int) / 86400000 = 0 := by omega
    rw [Span.isZero_iff.1 hzero, hsum]
    exact Prod.ext ((congrArg _ htime).trans (ofSinceMidnight_sinceMidnight h)).symm hdays.symm
  · rfl

/-- A later time is found by its count, wrapped around midnight. -/
theorem add_eq (h : t.Valid) {s : Span} (hs : t.sinceMidnight + s.toInt ≤ Span.maxMs) :
    t.add s = ofSinceMidnight ((t.sinceMidnight + s.toInt) % msPerDay).toNat := by
  have hmin := s.minMs_le_toInt
  have hsum : Span.clamp (t.sinceMidnight + s.toInt) = t.sinceMidnight + s.toInt := by
    unfold Span.clamp
    omega
  unfold add
  rw [addWithDays_eq h, hsum]

theorem valid_add (h : t.Valid) (s : Span) : (t.add s).Valid := by
  unfold add addWithDays
  split_ifs
  · exact h
  · exact valid_ofSinceMidnight (toNat_emod_msPerDay_lt _)

/-- A count below a day is the count of one time of day. -/
theorem eq_ofSinceMidnight_iff {n : Nat} (hn : n < msPerDay) :
    t = ofSinceMidnight n ↔ t.Valid ∧ t.sinceMidnight = n := by
  constructor
  · rintro rfl
    exact ⟨valid_ofSinceMidnight hn, sinceMidnight_ofSinceMidnight n⟩
  · rintro ⟨h, rfl⟩
    exact (ofSinceMidnight_sinceMidnight h).symm

end Time

namespace DateTime

variable {a b : DateTime} {n : Int}

/-! ## Counts -/

/-- The count of the last instant. -/
def maxMilliseconds : Int := 315537897599999

theorem milliseconds_nonneg (h : a.Valid) : 0 ≤ a.milliseconds := by
  have h1 := Date.one_le_dayCount h.1
  unfold milliseconds
  rw [msPerDay_eq]
  omega

theorem milliseconds_le (h : a.Valid) : a.milliseconds ≤ maxMilliseconds := by
  have hdate := Date.dayCount_le h.1
  have htime := Time.sinceMidnight_lt h.2
  unfold Date.maxDayCount at hdate
  unfold milliseconds maxMilliseconds
  rw [msPerDay_eq] at *
  omega

example : last.milliseconds = maxMilliseconds := by decide

theorem check_eq_ok_iff : a.check = .ok b ↔ a.Valid ∧ a = b := by
  unfold check Valid
  simp only [bind_eq_ok_iff, pure_eq_ok_iff, Date.check_eq_ok_iff, Time.check_eq_ok_iff]
  constructor
  · rintro ⟨d, ⟨hd, rfl⟩, t, ⟨ht, rfl⟩, rfl⟩
    exact ⟨⟨hd, ht⟩, rfl⟩
  · rintro ⟨⟨hd, ht⟩, rfl⟩
    exact ⟨_, ⟨hd, rfl⟩, _, ⟨ht, rfl⟩, rfl⟩

/-- The instant on a day, at what is left of a count. -/
theorem milliseconds_of_dayCount_eq {d : Date} (hd : d.Valid)
    (hcount : (d.dayCount : Int) = n / msPerDay + 1) :
    let a : DateTime := ⟨d, .ofSinceMidnight (n % msPerDay).toNat⟩
    a.Valid ∧ a.milliseconds = n := by
  refine ⟨⟨hd, Time.valid_ofSinceMidnight (toNat_emod_msPerDay_lt n)⟩, ?_⟩
  unfold milliseconds
  dsimp only
  rw [Time.sinceMidnight_ofSinceMidnight, hcount, msPerDay_eq]
  omega

/-- A count is the count of one instant at most, and it is found if there is one. -/
theorem ofMilliseconds_eq_ok_iff : ofMilliseconds n = .ok a ↔ a.Valid ∧ a.milliseconds = n := by
  unfold ofMilliseconds
  constructor
  · intro h
    dsimp only at h
    split_ifs at h
    obtain ⟨d, hd, hpure⟩ := bind_eq_ok_iff.1 h
    obtain rfl := pure_eq_ok_iff.1 hpure
    obtain ⟨hvalid, hcount⟩ := Date.ofDayCount_eq_ok_iff.1 hd
    exact milliseconds_of_dayCount_eq hvalid hcount
  · rintro ⟨⟨hd, ht⟩, rfl⟩
    have hlt := Time.sinceMidnight_lt ht
    have hmax := Date.dayCount_le hd
    have h1 := Date.one_le_dayCount hd
    have hdays : a.milliseconds / msPerDay + 1 = a.date.dayCount := by
      unfold milliseconds
      rw [msPerDay_eq] at *
      omega
    have htime : (a.milliseconds % msPerDay).toNat = a.time.sinceMidnight := by
      unfold milliseconds
      rw [msPerDay_eq] at *
      omega
    dsimp only
    rw [hdays, htime, if_neg (by omega), Date.ofDayCount_eq_ok_iff.2 ⟨hd, rfl⟩,
      Time.ofSinceMidnight_sinceMidnight ht]
    rfl

/-- No two instants have the same count. -/
theorem milliseconds_inj (ha : a.Valid) (hb : b.Valid) (h : a.milliseconds = b.milliseconds) :
    a = b := by
  have hfound := ofMilliseconds_eq_ok_iff.2 ⟨ha, h⟩
  rw [ofMilliseconds_eq_ok_iff.2 ⟨hb, rfl⟩] at hfound
  exact (Except.ok.inj hfound).symm

/-- The counts that have an instant. -/
theorem exists_milliseconds_eq_iff :
    (∃ a : DateTime, a.Valid ∧ a.milliseconds = n) ↔ 0 ≤ n ∧ n ≤ maxMilliseconds := by
  constructor
  · rintro ⟨a, ha, rfl⟩
    exact ⟨milliseconds_nonneg ha, milliseconds_le ha⟩
  · rintro ⟨h0, hmax⟩
    have hdays : 1 ≤ n / msPerDay + 1 ∧ n / msPerDay + 1 ≤ Date.maxDayCount := by
      unfold maxMilliseconds at hmax
      unfold Date.maxDayCount
      rw [msPerDay_eq]
      omega
    obtain ⟨d, hd, hcount⟩ := Date.exists_dayCount_eq hdays.1 hdays.2
    exact ⟨_, milliseconds_of_dayCount_eq hd hcount⟩

/-- A count that has no instant is refused. -/
theorem ofMilliseconds_eq_error {n : Int} (h : ¬(0 ≤ n ∧ n ≤ maxMilliseconds)) :
    ofMilliseconds n = .error .arithmeticOverflow := by
  unfold maxMilliseconds at h
  unfold ofMilliseconds Date.maxDayCount
  rw [msPerDay_eq]
  exact if_pos (by omega)

/-! ## Arithmetic -/

theorem add_eq_ok_iff (ha : a.Valid) {s : Span} :
    a.add s = .ok b ↔ b.Valid ∧ b.milliseconds = a.milliseconds + s.toInt := by
  unfold add
  by_cases hzero : s.isZero = true
  · rw [if_pos hzero, Span.isZero_iff.1 hzero, Int.add_zero]
    constructor
    · intro h
      cases h
      exact ⟨ha, rfl⟩
    · rintro ⟨hb, h⟩
      rw [milliseconds_inj hb ha h]
  · rw [if_neg hzero]
    exact ofMilliseconds_eq_ok_iff

end DateTime

/-! ## Offsets -/

theorem Zoned.of_eq_ok_iff {α : Type} {wall : α} {offset : Int} {z : Zoned α} :
    Zoned.of wall offset = .ok z ↔ ValidOffset offset ∧ z = ⟨wall, offset⟩ := by
  unfold Zoned.of
  constructor
  · intro h
    split_ifs at h with hoffset
    cases h
    exact ⟨hoffset, rfl⟩
  · rintro ⟨h, rfl⟩
    exact if_pos h

theorem toInt_offset {offset : Int} (h : Zoned.ValidOffset offset) :
    (Int64.ofInt offset).toInt = offset := by
  unfold Zoned.ValidOffset maxOffset at h
  exact Int64.toInt_ofInt_of_le (by omega) (by omega)

theorem offsetSpan_of_validOffset {offset : Int} (h : Zoned.ValidOffset offset) :
    ∃ s : Span, offsetSpan offset = .ok s ∧ s.toInt = offset * msPerMinute := by
  have hfits : Span.minMs ≤ offset * msPerMinute ∧ offset * msPerMinute ≤ Span.maxMs := by
    unfold Zoned.ValidOffset maxOffset at h
    unfold Span.minMs Span.maxMs msPerMinute msPerSecond
    omega
  refine ⟨⟨Int64.ofInt (offset * msPerMinute)⟩, ?_, Span.toInt_mk hfits.1 hfits.2⟩
  unfold offsetSpan Span.Amount.toSpan
  rw [toInt_offset h]
  exact if_pos hfits

namespace ZonedDateTime

variable {z : ZonedDateTime} {a : DateTime}

theorem utc_eq_ok_iff (hwall : z.wall.Valid) (hoffset : Zoned.ValidOffset z.offset) :
    z.utc = .ok a ↔ a.Valid ∧ a.milliseconds = z.wall.milliseconds - msPerMinute * z.offset := by
  obtain ⟨s, hs, hcount⟩ := offsetSpan_of_validOffset hoffset
  have hneg : s.neg.toInt = -(msPerMinute * z.offset) := by
    unfold Zoned.ValidOffset maxOffset at hoffset
    rw [Span.toInt_neg, hcount]
    unfold Span.maxMs msPerMinute msPerSecond
    omega
  have hutc : z.utc = z.wall.add s.neg := by
    unfold utc
    rw [hs]
    rfl
  rw [hutc, DateTime.add_eq_ok_iff hwall, hneg, Int.sub_eq_add_neg]

end ZonedDateTime

/-- A time of day in UTC is the local one less the offset, wrapped around midnight. -/
theorem ZonedTime.utc_eq {z : ZonedTime} (hwall : z.wall.Valid)
    (hoffset : Zoned.ValidOffset z.offset) : z.utc =
      .ofSinceMidnight ((z.wall.sinceMidnight - msPerMinute * z.offset) % msPerDay).toNat := by
  have hlt := Time.sinceMidnight_lt hwall
  have hcount : Span.toInt ⟨Int64.ofInt (z.offset * -msPerMinute)⟩ = -(msPerMinute * z.offset) := by
    unfold Zoned.ValidOffset maxOffset at hoffset
    unfold msPerMinute msPerSecond
    rw [Span.toInt_mk]
    · omega
    · unfold Span.minMs
      omega
    · unfold Span.maxMs
      omega
  unfold Zoned.ValidOffset maxOffset at hoffset
  unfold utc
  rw [Time.add_eq hwall, hcount, Int.sub_eq_add_neg]
  rw [hcount]
  unfold Span.maxMs msPerMinute msPerSecond
  rw [msPerDay_eq] at hlt
  omega

end TextCodec.Calendar
