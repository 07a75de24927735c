import Mathlib.Algebra.Order.Floor.Semifield
import Mathlib.Data.Rat.Floor
import Mathlib.Tactic.FieldSimp
import Mathlib.Tactic.Linarith
import Mathlib.Tactic.Ring
import TextCodec.Proofs.Iso8601.Numbers

/-!
# Fractions of a second

A fraction is rounded to milliseconds by four of its digits, however many there are, and a short
fraction is filled up with zeros. This is the whole fraction rounded, a half going up
(`fraction_rounds`).

1. The digits after a point stand for a rational number (`decimal`), of which the run is the
   numerator over a power of ten (`decimal_eq`). Zeros at the end do not change it
   (`decimal_append_zeros`).
2. The nearest millisecond is the floor of its thousandfold and a half
   (`nearestMillisecond_eq_floor`), so it does not decrease with the fraction.
3. The digits are collected in a word of 16 bits, place by place. `fraction16?` repeats that, and no
   step of it fails (`computes_fraction`). The bytes after a short fraction are not looked at.
-/

namespace TextCodec.Iso8601

open Calendar Decimal

/-! ## Numbers behind a point -/

/-- The number that digits after a point stand for. -/
def decimal : Bytes → ℚ
  | [] => 0
  | b :: run => (digitValue b + decimal run) / 10

section Decimal

variable {run : Bytes}

theorem decimal_append (a b : Bytes) :
    decimal (a ++ b) = decimal a + decimal b / 10 ^ a.length := by
  induction a with
  | nil => simp [decimal]
  | cons d a ih =>
    rw [List.cons_append, decimal, decimal, ih, List.length_cons, pow_succ]
    field_simp
    ring

theorem decimal_eq (run : Bytes) : decimal run = value run / 10 ^ run.length := by
  induction run using List.reverseRecOn with
  | nil => simp [decimal, value]
  | append_singleton run b ih =>
    rw [decimal_append, ih, value_append_singleton, List.length_append, List.length_singleton,
      pow_succ, decimal, decimal]
    push_cast
    field_simp
    ring

theorem decimal_append_zeros (run : Bytes) (k : Nat) :
    decimal (run ++ List.replicate k '0'.toUInt8) = decimal run := by
  rw [decimal_append, decimal_eq (List.replicate k _), value_zeros]
  simp

theorem nearestMillisecond_eq_floor (run : Bytes) :
    nearestMillisecond run = ⌊1000 * decimal run + 1 / 2⌋₊ := by
  have hquotient : 1000 * decimal run + 1 / 2 =
      ((1000 * value run * 2 + 10 ^ run.length : ℕ) : ℚ) / (10 ^ run.length * 2 : ℕ) := by
    rw [decimal_eq]
    push_cast
    field_simp
  rw [hquotient, Nat.floor_div_eq_div]
  rfl

end Decimal

/-! ## Words -/

/-- The digit at a place of a text, or zero behind so many digits. -/
def digitAt? (text : Bytes) (count place : Nat) : Option Nat :=
  match text[place]?.filter fun _ => place < count with
  | some b => digitValue? b
  | none => some 0

/-- The first four of so many digits, collected in a word of 16 bits. -/
def tenths16? (text : Bytes) (count : Nat) : Option Nat :=
  (List.range 4).foldlM (fun n place => do push? 16 n (← digitAt? text count place)) 0

/-- The digits after the point, in milliseconds. -/
def fraction16? (text : Bytes) : Guarded Error (Nat × Bytes) := do
  let count := (text.takeWhile isDigit).length
  if count = 0 then throw .malformedText
  else do
    let tenths ← tenths16? text count
    let sum ← fit? 16 (tenths + 5)
    return (sum / 10, text.drop count)

section Words

variable {run rest : Bytes}

/-- A list that is filled up and cut, place by place. -/
theorem take_append_replicate (run : Bytes) (k : Nat) (b : UInt8) :
    (run ++ List.replicate k b).take k = (List.range k).map fun place => run.getD place b := by
  apply List.ext_getElem
  · simp
  · intro place hplace _
    simp only [List.length_take, List.length_append, List.length_replicate] at hplace
    simp only [List.getElem_take, List.getElem_append, List.getElem_replicate, List.getElem_map,
      List.getElem_range, List.getD_eq_getElem?_getD]
    split_ifs with h
    · simp [h]
    · simp [Nat.le_of_not_lt h]

theorem digitAt?_append (run rest : Bytes) (place : Nat) :
    digitAt? (run ++ rest) run.length place = digitValue? (run.getD place '0'.toUInt8) := by
  unfold digitAt?
  by_cases h : place < run.length
  · simp [List.getElem?_append_left h, h, Option.filter]
  · simp [h, List.getD_eq_getElem?_getD]
    rfl

theorem isRun_append_zeros (hrun : IsRun run) (k : Nat) :
    IsRun (run ++ List.replicate k '0'.toUInt8) := by
  intro b hb
  rcases List.mem_append.1 hb with hb | hb
  · exact hrun b hb
  · rw [List.eq_of_mem_replicate hb]
    rfl

theorem isRun_padded (hrun : IsRun run) (k : Nat) :
    IsRun ((run ++ List.replicate k '0'.toUInt8).take k) :=
  fun b hb => isRun_append_zeros hrun k b (List.mem_of_mem_take hb)

theorem tenths16?_eq (hrun : IsRun run) (rest : Bytes) : tenths16? (run ++ rest) run.length =
    some (value ((run ++ List.replicate 4 '0'.toUInt8).take 4)) := by
  rw [← value?_eq (isRun_padded hrun 4) (show _ ≤ 2 ^ 16 by simp)]
  unfold tenths16? value?
  rw [take_append_replicate, List.foldlM_map]
  simp only [digitAt?_append]

theorem computes_fraction (text : Bytes) :
    Computes (fraction16? text) (expect .malformedText (fraction text)) fun _ => True := by
  obtain ⟨run, rest, rfl, hrun, hrest⟩ := exists_run text
  unfold fraction16? fraction
  dsimp only
  rw [takeWhile_run hrun hrest]
  simp only [List.isEmpty_iff_length_eq_zero]
  split_ifs with hempty
  · exact .throw _
  · have hlt := value_lt (isRun_padded hrun 4)
    rw [List.length_take, List.length_append, List.length_replicate,
      Nat.min_eq_left (Nat.le_add_left 4 _)] at hlt
    exact .bind_some (tenths16?_eq hrun rest) (.bind_some (if_pos (by omega)) (.pure trivial))

end Words

/-! ## Readers -/

theorem fraction_append {run rest : Bytes} (hne : run ≠ []) (hrun : IsRun run)
    (hrest : NoDigit rest) :
    fraction (run ++ rest) = some (⌊1000 * decimal run + 1 / 2⌋₊, rest) :=
  fraction_eq_some_iff.2 ⟨run, rfl, hne, hrun, hrest, (nearestMillisecond_eq_floor run).symm⟩

/-- What is read is read from the digits that come before the rest. -/
theorem eq_floor_of_fraction {run rest : Bytes} {ms : Nat}
    (h : fraction (run ++ rest) = some (ms, rest)) : ms = ⌊1000 * decimal run + 1 / 2⌋₊ := by
  obtain ⟨run', happend, -, -, -, rfl⟩ := fraction_eq_some_iff.1 h
  rw [List.append_cancel_right happend, nearestMillisecond_eq_floor]

theorem fraction_eq_none_iff {text : Bytes} : fraction text = none ↔ NoDigit text := by
  obtain ⟨run, rest, rfl, hrun, hrest⟩ := exists_run text
  cases run with
  | nil =>
    refine iff_of_true ?_ hrest
    unfold fraction
    dsimp only
    rw [takeWhile_run hrun hrest]
    rfl
  | cons b run =>
    rw [fraction_append (List.cons_ne_nil b run) hrun hrest]
    refine iff_of_false (by simp) fun hno => ?_
    have hb := hno b rfl
    rw [hrun b (by simp)] at hb
    cases hb

/-- **Four digits round a fraction.** A fraction of any length is read as the whole fraction to the
nearest millisecond, a half going up, and what follows it is left. That is at most a whole second,
and zeros at the end of the fraction do not change it. A fraction that is not less is not read as
less. Nothing is read exactly where no digit comes first. No word of the reader wraps around. -/
theorem fraction_rounds :
    (∀ run rest : Bytes, run ≠ [] → IsRun run → NoDigit rest →
      ∃ ms, fraction (run ++ rest) = some (ms, rest) ∧ ms = ⌊1000 * decimal run + 1 / 2⌋₊ ∧
        ms ≤ 1000 ∧
        ∀ k, fraction (run ++ List.replicate k '0'.toUInt8 ++ rest) = some (ms, rest)) ∧
      (∀ (a b rest rest' : Bytes) (m n : Nat), fraction (a ++ rest) = some (m, rest) →
        fraction (b ++ rest') = some (n, rest') → decimal a ≤ decimal b → m ≤ n) ∧
      ∀ text : Bytes, (fraction text = none ↔ NoDigit text) ∧
        (fraction16? text).run = some (expect .malformedText (fraction text)) := by
  refine ⟨fun run rest hne hrun hrest => ?_, fun a b rest rest' m n hm hn hle => ?_,
    fun text => ⟨fraction_eq_none_iff, (computes_fraction text).run_eq⟩⟩
  · refine ⟨_, fraction_append hne hrun hrest, rfl, ?_, fun k => ?_⟩
    · rw [← nearestMillisecond_eq_floor]
      exact nearestMillisecond_le hrun
    · rw [fraction_append (by simp [hne]) (isRun_append_zeros hrun k) hrest,
        decimal_append_zeros]
  · rw [eq_floor_of_fraction hm, eq_floor_of_fraction hn]
    exact Nat.floor_mono (by linarith)

/-- The fifth and later digits do not carry a half over, and the fourth does. -/
theorem fraction_rounds_whole_second :
    let a : Bytes := Bytes.ofString "99949999"
    let b : Bytes := Bytes.ofString "9995"
    let rest : Bytes := Bytes.ofString "Z"
    (b ≠ [] ∧ IsRun b ∧ NoDigit rest) ∧
      (fraction (b ++ rest) = some (1000, rest) ∧ 1000 = ⌊1000 * decimal b + 1 / 2⌋₊ ∧
        fraction (b ++ List.replicate 30 '0'.toUInt8 ++ rest) = some (1000, rest)) ∧
      fraction (a ++ rest) = some (999, rest) ∧ decimal a ≤ decimal b ∧ 999 ≤ 1000 := by
  intro a b rest
  have hrun : IsRun b := by
    unfold IsRun
    decide +kernel
  have hrest : NoDigit rest := noDigit_cons (by decide) []
  have ha : fraction (a ++ rest) = some (999, rest) := by decide +kernel
  have hb : fraction (b ++ rest) = some (1000, rest) := by decide +kernel
  have hle : decimal a ≤ decimal b := by
    have hvalue : value a = 99949999 ∧ value b = 9995 := by decide +kernel
    have hlen : a.length = 8 ∧ b.length = 4 := by decide +kernel
    rw [decimal_eq, decimal_eq, hvalue.1, hvalue.2, hlen.1, hlen.2]
    norm_num
  obtain ⟨hround, hmono, -⟩ := fraction_rounds
  obtain ⟨ms, hread, hms, -, hzeros⟩ := hround b rest (by decide) hrun hrest
  rw [hb, Option.some.injEq, Prod.mk.injEq] at hread
  obtain ⟨rfl, -⟩ := hread
  exact ⟨⟨by decide, hrun, hrest⟩, ⟨hb, hms, hzeros 30⟩, ha, hle,
    hmono a b rest rest 999 1000 ha hb hle⟩

end TextCodec.Iso8601
