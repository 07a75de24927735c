import Mathlib.Algebra.Ring.Int.Defs
import Mathlib.Tactic.Common
import TextCodec.Proofs.Calendar.Arithmetic

/-!
# Ways to UTC

There are two ways from a local value to UTC. An instant moves back by a span of minutes, which is
checked when it is formed and clamped when it is turned around. A time of day moves by a product of
words, which may wrap around, and then wraps around midnight.

1. An offset fits in its word, and so do its milliseconds (`toInt_offset64`,
   `Span.Amount.toSpan64_eq`).
2. An instant goes to the one whose count is less by the offset, and there is no other way to fail
   than to leave the calendar (`ZonedDateTime.counts_utc`).
3. Both ways show the same time of day (`ZonedDateTime.time_utc`). So does a date, which goes to
   UTC as the instant at which it starts.
-/

namespace TextCodec.Calendar

/-! ## Products of words -/

namespace Word

variable {x y : Int64}

/-- The product, unless it does not fit. -/
def checkedMul (x y : Int64) : Option Int64 :=
  if Span.minMs ≤ x.toInt * y.toInt ∧ x.toInt * y.toInt ≤ Span.maxMs then some (x * y) else none

theorem toInt_mul (h1 : -2 ^ 63 ≤ x.toInt * y.toInt) (h2 : x.toInt * y.toInt < 2 ^ 63) :
    (x * y).toInt = x.toInt * y.toInt := by
  rw [Int64.toInt_mul, Int.bmod_eq_of_le] <;> omega

end Word

namespace Span

/-- The span that an amount denotes. -/
def Amount.toSpan64 (a : Amount) : Except Error Span :=
  match Word.checkedMul a.count (.ofNat a.unit.ms) with
  | some n => .ok ⟨n⟩
  | none => .error .arithmeticOverflow

theorem TimeUnit.toInt_ms (u : TimeUnit) : (Int64.ofNat u.ms).toInt = u.ms := by
  cases u <;> decide

theorem Amount.toSpan64_eq (a : Amount) : a.toSpan64 = a.toSpan := by
  unfold toSpan64 toSpan Word.checkedMul ofInt
  rw [TimeUnit.toInt_ms]
  split_ifs with h
  · simp only [Except.ok.injEq, ← toInt_inj]
    rw [toInt_mk h.1 h.2]
    unfold minMs maxMs at h
    show (a.count * .ofNat a.unit.ms).toInt = _
    rw [Word.toInt_mul, TimeUnit.toInt_ms] <;> rw [TimeUnit.toInt_ms] <;> omega
  · rfl

end Span

/-! ## Words of offsets -/

/-- An offset, cut to a word of 16 bits and widened again. -/
def offset64 (offset : Int) : Int64 := (Int16.ofInt offset).toInt64

section Offset

variable {offset : Int} (h : Zoned.ValidOffset offset)

include h

theorem toInt_offset64 : (offset64 offset).toInt = offset := by
  unfold Zoned.ValidOffset maxOffset at h
  unfold offset64
  rw [Int16.toInt_toInt64]
  apply Int16.toInt_ofInt_of_le <;> omega

theorem offset64_eq : offset64 offset = .ofInt offset := by
  rw [← Int64.toInt_inj, toInt_offset64 h, toInt_offset h]

end Offset

/-! ## Instants -/

theorem msPerMinute_eq : (msPerMinute : Int) = 60000 := rfl

theorem DateTime.sinceMidnight_time {a : DateTime} (h : a.Valid) :
    (a.time.sinceMidnight : Int) = a.milliseconds % msPerDay := by
  have hlt := Time.sinceMidnight_lt h.2
  unfold milliseconds
  rw [msPerDay_eq] at *
  omega

namespace ZonedDateTime

/-- The same instant in UTC. -/
def utc64 (z : ZonedDateTime) : Except Error DateTime := do
  z.wall.sub64 (← Span.Amount.toSpan64 ⟨.minutes, offset64 z.offset⟩)

section Utc

variable {z : ZonedDateTime} {u : DateTime} (hwall : z.wall.Valid)
  (hoffset : Zoned.ValidOffset z.offset)

include hwall hoffset

theorem utc64_eq : z.utc64 = z.utc := by
  unfold utc64 utc offsetSpan
  rw [Span.Amount.toSpan64_eq, offset64_eq hoffset]
  congr 1
  funext s
  exact DateTime.sub64_eq hwall s

theorem counts_utc : DateTime.Counts z.utc (z.wall.milliseconds - msPerMinute * z.offset) := by
  obtain ⟨s, hs, hcount⟩ := offsetSpan_of_validOffset hoffset
  have hutc : z.utc = z.wall.sub s := by
    unfold utc
    rw [hs]
    rfl
  rw [hutc, Int.mul_comm, ← hcount]
  exact DateTime.counts_sub hwall s

/-- Adding the offset leads back. -/
theorem add_of_utc (hu : z.utc = .ok u) :
    ∃ s, Span.Amount.toSpan ⟨.minutes, .ofInt z.offset⟩ = .ok s ∧ u.add s = .ok z.wall := by
  obtain ⟨s, hs, hcount⟩ := offsetSpan_of_validOffset hoffset
  obtain ⟨hvalid, hdiff⟩ := (utc_eq_ok_iff hwall hoffset).1 hu
  refine ⟨s, hs, (DateTime.add_eq_ok_iff hvalid).2 ⟨hwall, ?_⟩⟩
  rw [hdiff, hcount, Int.mul_comm]
  omega

/-- The time of day goes to UTC by itself. -/
theorem time_utc (hu : z.utc = .ok u) : u.time = ZonedTime.utc ⟨z.wall.time, z.offset⟩ := by
  obtain ⟨hvalid, hdiff⟩ := (utc_eq_ok_iff hwall hoffset).1 hu
  have hbefore := DateTime.sinceMidnight_time hwall
  have hafter := DateTime.sinceMidnight_time hvalid
  rw [ZonedTime.utc_eq hwall.2 hoffset, Time.eq_ofSinceMidnight_iff (toNat_emod_msPerDay_lt _)]
  refine ⟨hvalid.2, ?_⟩
  dsimp only
  rw [msPerDay_eq] at *
  omega

end Utc

end ZonedDateTime

/-! ## Times and dates -/

/-- The time a span later, wrapped around midnight. -/
def Time.add64 (t : Time) (s : Span) : Time := (t.addWithDays64 s).1

/-- The same time of day in UTC. -/
def ZonedTime.utc64 (z : ZonedTime) : Time :=
  z.wall.add64 ⟨offset64 z.offset * .ofInt (-msPerMinute)⟩

theorem ZonedTime.utc64_eq {z : ZonedTime} (hwall : z.wall.Valid)
    (hoffset : Zoned.ValidOffset z.offset) : z.utc64 = z.utc := by
  have hproduct : offset64 z.offset * .ofInt (-msPerMinute) =
      .ofInt (z.offset * -msPerMinute) := by
    rw [offset64_eq hoffset, Int64.ofInt_mul]
  unfold utc64
  rw [hproduct]
  exact (Time.addWithDays64_eq hwall _).1

/-- The start of the local date as an instant in UTC. -/
def ZonedDate.utc64 (z : ZonedDate) : Except Error DateTime := do
  DateTime.sub64 ⟨z.wall, .midnight⟩ (← Span.Amount.toSpan64 ⟨.minutes, offset64 z.offset⟩)

/-- **Ways to UTC agree.** A local instant goes to the instant whose count is less by the offset, or
is refused if the calendar does not have it. Adding the offset leads back, and the time of day is
the one that the local time goes to by itself. A local date goes to UTC as its first instant does,
refusals included. So it is in machine words. -/
theorem utc_agrees :
    (∀ z : ZonedDateTime, z.wall.Valid → -1439 ≤ z.offset ∧ z.offset ≤ 1439 →
      (Zoned.of z.wall z.offset = .ok z ∧
        DateTime.Counts z.utc (z.wall.milliseconds - 60000 * z.offset)) ∧
      (∀ u, z.utc = .ok u →
        (∃ s, Span.Amount.toSpan ⟨.minutes, .ofInt z.offset⟩ = .ok s ∧ u.add s = .ok z.wall) ∧
          u.time = ZonedTime.utc ⟨z.wall.time, z.offset⟩) ∧
      z.utc64 = z.utc ∧
      ZonedTime.utc64 ⟨z.wall.time, z.offset⟩ = ZonedTime.utc ⟨z.wall.time, z.offset⟩) ∧
    ∀ z : ZonedDate, z.wall.Valid → -1439 ≤ z.offset ∧ z.offset ≤ 1439 →
      z.utc = ZonedDateTime.utc ⟨⟨z.wall, .midnight⟩, z.offset⟩ ∧ z.utc64 = z.utc := by
  refine ⟨fun z hwall hoffset => ⟨⟨?_, ?_⟩, ?_, ?_, ?_⟩, fun z hwall hoffset => ⟨rfl, ?_⟩⟩
  · exact Zoned.of_eq_ok_iff.2 ⟨hoffset, rfl⟩
  · have hcounts := ZonedDateTime.counts_utc hwall hoffset
    rwa [msPerMinute_eq] at hcounts
  · intro u hu
    exact ⟨ZonedDateTime.add_of_utc hwall hoffset hu, ZonedDateTime.time_utc hwall hoffset hu⟩
  · exact ZonedDateTime.utc64_eq hwall hoffset
  · exact ZonedTime.utc64_eq (z := ⟨z.wall.time, z.offset⟩) hwall.2 hoffset
  · have hstart : DateTime.Valid ⟨z.wall, .midnight⟩ := ⟨hwall, show Time.midnight.Valid by decide⟩
    exact ZonedDateTime.utc64_eq (z := ⟨⟨z.wall, .midnight⟩, z.offset⟩) hstart hoffset

/-- Back over the end of a February, and out of the calendar from its first minute. -/
theorem utc_agrees_leap_day :
    let z : ZonedDateTime := ⟨⟨⟨2024, 3, 1⟩, ⟨1, 30, 0, 5⟩⟩, 120⟩
    let u : DateTime := ⟨⟨2024, 2, 29⟩, ⟨23, 30, 0, 5⟩⟩
    let early : ZonedDateTime := ⟨.first, 120⟩
    (z.wall.Valid ∧ early.wall.Valid ∧ -1439 ≤ z.offset ∧ z.offset ≤ 1439) ∧
      (z.utc = .ok u ∧ u.time = ZonedTime.utc ⟨⟨1, 30, 0, 5⟩, 120⟩) ∧
      early.utc = .error .arithmeticOverflow := by
  intro z u early
  have hz : z.wall.Valid := by decide
  have hearly : early.wall.Valid := by decide
  have hoffset : -1439 ≤ z.offset ∧ z.offset ≤ 1439 := by decide
  have hu : z.utc = .ok u := by decide +kernel
  obtain ⟨-, hutc, -⟩ := utc_agrees.1 z hz hoffset
  obtain ⟨⟨-, hcounts⟩, -⟩ := utc_agrees.1 early hearly hoffset
  exact ⟨⟨hz, hearly, hoffset⟩, ⟨hu, (hutc u hu).2⟩, hcounts.refused (by decide)⟩

end TextCodec.Calendar
