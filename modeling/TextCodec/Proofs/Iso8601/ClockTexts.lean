import TextCodec.Failure
import TextCodec.Proofs.Iso8601.Texts

/-!
# Texts of times of day

Local times of day and times in UTC are read from the same texts (`IsClock`). A local time is what
the text counts from midnight, and a time in UTC is that less the offset; both wrap around
midnight (`parse_clock`).

There are four ways past midnight, which may come together: a leap second, a fraction that rounds
up to a second, hour 24, and the offset. The count adds them all up before it is wrapped.
-/

namespace TextCodec.Iso8601

open Calendar

section Readers

variable {text : Bytes}

theorem readZonedTime_eq_ok_iff {z : ZonedTime} : readZonedTime text = .ok z ↔
    ∃ count, IsClock text count z.offset ∧ z.wall = .ofSinceMidnight (count % msPerDay) := by
  unfold readZonedTime
  simp only [bind_eq_ok_iff, readLocalTime_eq_ok_iff, Zoned.of_eq_ok_iff, Prod.exists]
  constructor
  · rintro ⟨t, offset, ⟨count, hclock, rfl⟩, -, rfl⟩
    exact ⟨count, hclock, rfl⟩
  · rintro ⟨count, hclock, hwall⟩
    exact ⟨z.wall, z.offset, ⟨count, hclock, hwall⟩, hclock.validOffset, rfl⟩

/-- Taking a wrapped count to UTC gives the same as wrapping once at the end. -/
theorem readTime_eq_ok_iff {t : Time} : readTime text = .ok t ↔
    ∃ count offset, IsClock text count offset ∧
      t = .ofSinceMidnight (((count : Int) - 60000 * offset) % msPerDay).toNat := by
  have hutc : ∀ {count : Nat} {offset : Int}, Zoned.ValidOffset offset →
      ZonedTime.utc ⟨.ofSinceMidnight (count % msPerDay), offset⟩ =
        .ofSinceMidnight (((count : Int) - 60000 * offset) % msPerDay).toNat := by
    intro count offset hoffset
    have hlt : count % msPerDay < msPerDay := Nat.mod_lt _ (by decide)
    rw [ZonedTime.utc_eq (Time.valid_ofSinceMidnight hlt) hoffset]
    dsimp only
    rw [Time.sinceMidnight_ofSinceMidnight, Int.natCast_emod, Int.emod_sub_emod]
    rfl
  unfold readTime
  simp only [bind_eq_ok_iff, pure_eq_ok_iff, readLocalTime_eq_ok_iff, Zoned.of_eq_ok_iff,
    Prod.exists]
  constructor
  · rintro ⟨_, offset, ⟨count, hclock, rfl⟩, _, ⟨hoffset, rfl⟩, rfl⟩
    exact ⟨count, offset, hclock, hutc hoffset⟩
  · rintro ⟨count, offset, hclock, rfl⟩
    exact ⟨_, offset, ⟨count, hclock, rfl⟩, _, ⟨hclock.validOffset, rfl⟩, hutc hclock.validOffset⟩

end Readers

/-- **Texts of times of day.** A text is that of a local time exactly if it is `IsClock`, and it
then denotes the time at what it counts, with its offset. The same texts are those of times in UTC,
and then denote the time at the count less the offset. Both are wrapped around midnight. -/
theorem parse_clock (text : Bytes) :
    ((∃ z : ZonedTime, parse text = .ok z) ↔ ∃ count offset, IsClock text count offset) ∧
      (∀ z : ZonedTime, parse text = .ok z ↔ z.wall.Valid ∧
        ∃ count, IsClock text count z.offset ∧ z.wall.sinceMidnight = count % 86400000) ∧
      ((∃ t : Time, parse text = .ok t) ↔ ∃ count offset, IsClock text count offset) ∧
      ∀ t : Time, parse text = .ok t ↔ t.Valid ∧ ∃ count offset, IsClock text count offset ∧
        (t.sinceMidnight : Int) = (count - 60000 * offset) % 86400000 := by
  have hzoned : ∀ z : ZonedTime, parse text = .ok z ↔
      ∃ count, IsClock text count z.offset ∧ z.wall = .ofSinceMidnight (count % msPerDay) :=
    fun z => mapError_eq_ok_iff.trans readZonedTime_eq_ok_iff
  have hutc : ∀ t : Time, parse text = .ok t ↔ ∃ count offset, IsClock text count offset ∧
      t = .ofSinceMidnight (((count : Int) - 60000 * offset) % msPerDay).toNat :=
    fun t => mapError_eq_ok_iff.trans readTime_eq_ok_iff
  have hmod : ∀ count, count % msPerDay < msPerDay := fun count => Nat.mod_lt count (by decide)
  refine ⟨?_, fun z => ?_, ?_, fun t => ?_⟩
  · constructor
    · rintro ⟨z, hz⟩
      obtain ⟨count, hclock, -⟩ := (hzoned z).1 hz
      exact ⟨count, z.offset, hclock⟩
    · rintro ⟨count, offset, hclock⟩
      exact ⟨⟨_, offset⟩, (hzoned _).2 ⟨count, hclock, rfl⟩⟩
  · rw [hzoned z]
    constructor
    · rintro ⟨count, hclock, hwall⟩
      obtain ⟨hvalid, hcount⟩ := (Time.eq_ofSinceMidnight_iff (hmod count)).1 hwall
      exact ⟨hvalid, count, hclock, hcount⟩
    · rintro ⟨hvalid, count, hclock, hcount⟩
      exact ⟨count, hclock, (Time.eq_ofSinceMidnight_iff (hmod count)).2 ⟨hvalid, hcount⟩⟩
  · constructor
    · rintro ⟨t, ht⟩
      obtain ⟨count, offset, hclock, -⟩ := (hutc t).1 ht
      exact ⟨count, offset, hclock⟩
    · rintro ⟨count, offset, hclock⟩
      exact ⟨_, (hutc _).2 ⟨count, offset, hclock, rfl⟩⟩
  · rw [hutc t]
    constructor
    · rintro ⟨count, offset, hclock, ht⟩
      obtain ⟨hvalid, hcount⟩ := (Time.eq_ofSinceMidnight_iff (toNat_emod_msPerDay_lt _)).1 ht
      refine ⟨hvalid, count, offset, hclock, ?_⟩
      rw [hcount, msPerDay_eq]
      omega
    · rintro ⟨hvalid, count, offset, hclock, hcount⟩
      refine ⟨count, offset, hclock,
        (Time.eq_ofSinceMidnight_iff (toNat_emod_msPerDay_lt _)).2 ⟨hvalid, ?_⟩⟩
      rw [msPerDay_eq]
      omega

end TextCodec.Iso8601
