import Mathlib.Tactic.Common
import TextCodec.Proofs.Calendar.Narrowing

/-!
# Dates moved by days

Adding days to a date adds integers: the result is the date with the right count, or an overflow if
the calendar has no such date (`Date.counts_addDays`). An outcome is determined by its count
(`Date.Counts.unique`), so days that are added in turn may be added at once
(`Date.addDays_addDays`), and whether the last of them leave the calendar does not depend on where
the first ones led.

The sum is formed in 64 bits, where it may not fit, and cut to 32 bits once its range is known.
Neither changes the outcome.
-/

namespace TextCodec.Calendar.Date

/-- The result is the date with count `n`, and an overflow if there is none. -/
structure Counts (result : Except Error Date) (n : Int) : Prop where
  found : 1 ≤ n → n ≤ maxDayCount → ∃ d : Date, result = .ok d ∧ d.Valid ∧ (d.dayCount : Int) = n
  refused : ¬(1 ≤ n ∧ n ≤ maxDayCount) → result = .error .arithmeticOverflow

namespace Counts

variable {x y : Except Error Date} {n : Int}

theorem unique (hx : Counts x n) (hy : Counts y n) : x = y := by
  by_cases h : 1 ≤ n ∧ n ≤ maxDayCount
  · obtain ⟨d, rfl, hd, hcount⟩ := hx.found h.1 h.2
    obtain ⟨e, rfl, he, hcount'⟩ := hy.found h.1 h.2
    rw [dayCount_inj hd he (by omega)]
  · rw [hx.refused h, hy.refused h]

theorem of_ok {d : Date} (h : Counts (.ok d) n) : d.Valid ∧ (d.dayCount : Int) = n := by
  by_cases hrange : 1 ≤ n ∧ n ≤ maxDayCount
  · obtain ⟨e, he, hvalid, hcount⟩ := h.found hrange.1 hrange.2
    cases he
    exact ⟨hvalid, hcount⟩
  · cases h.refused hrange

/-- There is no other error than an overflow. -/
theorem of_error {e : Error} (h : Counts (.error e) n) : e = .arithmeticOverflow := by
  by_cases hrange : 1 ≤ n ∧ n ≤ maxDayCount
  · obtain ⟨d, hd, -⟩ := h.found hrange.1 hrange.2
    cases hd
  · cases h.refused hrange
    rfl

end Counts

section Shifts

variable {d e : Date} (h : d.Valid)

include h

theorem counts_addDays (n : Int) : Counts (d.addDays n) (d.dayCount + n) := by
  rw [addDays_eq h]
  constructor
  · intro h1 hmax
    obtain ⟨e, he, hcount⟩ := exists_dayCount_eq h1 hmax
    refine ⟨e, ?_, he, hcount⟩
    rw [if_neg (by omega)]
    exact ofDayCount_eq_ok_iff.2 ⟨he, hcount⟩
  · intro hout
    exact if_pos (by omega)

/-- There is no other refusal than an overflow. -/
theorem eq_arithmeticOverflow_of_addDays {n : Int} {e : Error} (he : d.addDays n = .error e) :
    e = .arithmeticOverflow := by
  have hcounts := counts_addDays h n
  rw [he] at hcounts
  exact hcounts.of_error

theorem valid_of_addDays {n : Int} (he : d.addDays n = .ok e) :
    e.Valid ∧ (e.dayCount : Int) = d.dayCount + n := by
  have hcounts := counts_addDays h n
  rw [he] at hcounts
  exact hcounts.of_ok

/-- Days that are added in turn may be added at once. -/
theorem addDays_addDays {a : Int} (he : d.addDays a = .ok e) (b : Int) :
    e.addDays b = d.addDays (a + b) := by
  obtain ⟨hvalid, hcount⟩ := valid_of_addDays h he
  have hturn := counts_addDays hvalid b
  rw [hcount, Int.add_assoc] at hturn
  exact hturn.unique (counts_addDays h (a + b))

/-- In machine words too, if the sum of the days fits in one. -/
theorem addDays64_addDays64 {a b c : Int64} (hc : Word.checkedAdd a b = some c)
    (he : d.addDays64 a = .ok e) : e.addDays64 b = d.addDays64 c := by
  rw [addDays64_eq h] at he ⊢
  rw [addDays64_eq (valid_of_addDays h he).1, Word.toInt_of_checkedAdd hc]
  exact addDays_addDays h he b.toInt

end Shifts

/-- **Days are added exactly.** A date is moved to the one whose count is greater by the days, or
refused with an overflow if the calendar does not have it. Days that are added in turn lead where
their sum does, refusals included. So it is in machine words, also if a count does not fit in one,
and no cast or index on the way loses anything. -/
theorem addDays_exact {d : Date} (h : d.Valid) :
    (∀ n : Int, Counts (d.addDays n) (d.dayCount + n) ∧
      (d.addDays? n).run = some (d.addDays n)) ∧
    (∀ n : Int64, d.addDays64 n = d.addDays n.toInt) ∧
    (∀ (a b : Int) (e : Date), d.addDays a = .ok e → e.addDays b = d.addDays (a + b)) ∧
    ∀ (a b c : Int64) (e : Date), Word.checkedAdd a b = some c → d.addDays64 a = .ok e →
      e.addDays64 b = d.addDays64 c := by
  refine ⟨fun n => ⟨?_, ?_⟩, ?_, ?_, ?_⟩
  · exact counts_addDays h n
  · exact (computes_addDays h n).run_eq
  · exact addDays64_eq h
  · intro a b e he
    exact addDays_addDays h he b
  · intro a b c e hc he
    exact addDays64_addDays64 h hc he

/-- Over the end of a February and back, and out of the calendar by a count that does not fit. -/
theorem addDays_exact_leap_day :
    let d : Date := ⟨2024, 3, 1⟩
    (d.Valid ∧ d.addDays 366 = .ok ⟨2025, 3, 2⟩ ∧ Word.checkedAdd 366 (-367) = some (-1) ∧
        d.addDays64 366 = .ok ⟨2025, 3, 2⟩) ∧
      addDays ⟨2025, 3, 2⟩ (-367) = .ok ⟨2024, 2, 29⟩ ∧
      addDays64 ⟨2025, 3, 2⟩ (-367) = .ok ⟨2024, 2, 29⟩ ∧
      d.addDays64 Int64.maxValue = .error .arithmeticOverflow := by
  intro d
  have h : d.Valid := by decide
  have hnext : d.addDays 366 = .ok ⟨2025, 3, 2⟩ := by decide +kernel
  have hnext64 : d.addDays64 366 = .ok ⟨2025, 3, 2⟩ := by decide +kernel
  have hsum : Word.checkedAdd 366 (-367) = some (-1) := by decide +kernel
  obtain ⟨hexact, hwords, hturn, hturn64⟩ := addDays_exact h
  have hback := hturn 366 (-367) _ hnext
  have hback64 := hturn64 366 (-367) (-1) _ hsum hnext64
  have hday : d.addDays (366 + -367) = .ok ⟨2024, 2, 29⟩ := by decide +kernel
  have hday64 : d.addDays64 (-1) = .ok ⟨2024, 2, 29⟩ := by decide +kernel
  have hfar := (hexact Int64.maxValue.toInt).1.refused (by decide +kernel)
  exact ⟨⟨h, hnext, hsum, hnext64⟩, hback.trans hday, hback64.trans hday64,
    (hwords _).trans hfar⟩

end TextCodec.Calendar.Date
