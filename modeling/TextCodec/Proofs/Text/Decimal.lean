import Mathlib.Algebra.Ring.Nat
import Mathlib.Data.List.Induction
import Mathlib.Tactic.Common
import TextCodec.Text.Decimal

/-!
# Runs of digits

A run of digits and its value determine each other once the length of the run is known: `digits`
writes a value and `digits_value` gets the run back. A field of fixed width is therefore read
exactly from the digits of its number, followed by something that is no digit
(`field_eq_some_iff`).
-/

namespace TextCodec.Decimal

/-- All bytes are digits. -/
def IsRun (run : Bytes) : Prop := ∀ b ∈ run, isDigit b = true

/-- The text does not begin with a digit. -/
def NoDigit (text : Bytes) : Prop := ∀ b, text.head? = some b → isDigit b = false

theorem noDigit_nil : NoDigit [] := fun _ h => nomatch h

theorem noDigit_cons {b : UInt8} (h : isDigit b = false) (text : Bytes) : NoDigit (b :: text) := by
  intro c hc
  cases hc
  exact h

theorem isRun_digits (width n : Nat) : IsRun (digits width n) := fun _ => isDigit_of_mem_digits

/-! ## Values -/

section Digit

variable {b : UInt8}

theorem digitValue_lt (h : isDigit b = true) : digitValue b < 10 := by
  unfold isDigit at h
  rw [Bool.and_eq_true, decide_eq_true_eq, decide_eq_true_eq] at h
  unfold digitValue
  omega

/-- A digit is written for its value, whatever the digits before it say. -/
theorem lastDigit_add (h : isDigit b = true) (n : Nat) : lastDigit (10 * n + digitValue b) = b := by
  have hlt := digitValue_lt h
  unfold isDigit at h
  rw [Bool.and_eq_true, decide_eq_true_eq, decide_eq_true_eq] at h
  apply UInt8.toNat_inj.1
  unfold lastDigit
  rw [UInt8.toNat_ofNat']
  unfold digitValue at *
  omega

end Digit

section Run

variable {run : Bytes}

theorem value_append (a b : Bytes) : value (a ++ b) = value a * 10 ^ b.length + value b := by
  induction b using List.reverseRecOn with
  | nil => simp [value]
  | append_singleton b d ih =>
    rw [← List.append_assoc, value_append_singleton, value_append_singleton, ih,
      List.length_append, List.length_singleton, Nat.pow_succ]
    rw [Nat.mul_add, ← Nat.mul_assoc, Nat.mul_comm 10, Nat.mul_assoc, Nat.mul_comm 10]
    omega

theorem value_zeros (k : Nat) : value (List.replicate k '0'.toUInt8) = 0 := by
  induction k with
  | zero => rfl
  | succ k ih =>
    rw [List.replicate_succ', value_append_singleton, ih]
    rfl

theorem value_lt (h : IsRun run) : value run < 10 ^ run.length := by
  induction run using List.reverseRecOn with
  | nil => decide
  | append_singleton run b ih =>
    have hlt := digitValue_lt (h b (by simp))
    have hrun := ih fun c hc => h c (by simp [hc])
    rw [value_append_singleton, List.length_append, List.length_singleton, Nat.pow_succ]
    omega

/-- A run is written for its value. -/
theorem digits_value (h : IsRun run) : digits run.length (value run) = run := by
  induction run using List.reverseRecOn with
  | nil => rfl
  | append_singleton run b ih =>
    have hb := h b (by simp)
    have hlt := digitValue_lt hb
    have htens : (10 * value run + digitValue b) / 10 = value run := by omega
    rw [value_append_singleton, List.length_append, List.length_singleton, digits, htens,
      ih fun c hc => h c (by simp [hc]), lastDigit_add hb]

end Run

theorem value_digits (width n : Nat) : value (digits width n) = n % 10 ^ width := by
  induction width generalizing n with
  | zero => simp [digits, value, Nat.mod_one]
  | succ width ih =>
    rw [digits, value_append_singleton, ih, digitValue_lastDigit, Nat.pow_succ', Nat.mod_mul]
    omega

theorem value_digits_of_lt {width n : Nat} (h : n < 10 ^ width) : value (digits width n) = n := by
  rw [value_digits, Nat.mod_eq_of_lt h]

/-! ## Fields -/

/-- A text is a run of digits, and then something that does not begin with a digit. -/
theorem exists_run (text : Bytes) : ∃ run rest, text = run ++ rest ∧ IsRun run ∧ NoDigit rest := by
  induction text with
  | nil => exact ⟨[], [], rfl, by simp [IsRun], noDigit_nil⟩
  | cons b text ih =>
    by_cases hb : isDigit b = true
    · obtain ⟨run, rest, rfl, hrun, hrest⟩ := ih
      refine ⟨b :: run, rest, rfl, ?_, hrest⟩
      intro c hc
      rcases List.mem_cons.1 hc with rfl | hc
      · exact hb
      · exact hrun c hc
    · exact ⟨[], b :: text, rfl, by simp [IsRun], noDigit_cons (by simpa using hb) text⟩

section Fields

variable {run text rest : Bytes} {width n : Nat}

theorem takeWhile_run (hrun : IsRun run) (hrest : NoDigit rest) :
    (run ++ rest).takeWhile isDigit = run :=
  takeWhile_append hrun hrest

/-- One digit beyond the limit is enough to tell that a run is too long. -/
theorem number_run (hrun : IsRun run) (hrest : NoDigit rest) :
    number (run ++ rest) =
      if run.length = 0 ∨ maxDigits < run.length then none else some (value run, rest) := by
  unfold number
  dsimp only
  rw [← List.take_takeWhile, takeWhile_run hrun hrest, List.length_take]
  by_cases h : run.length = 0 ∨ maxDigits < run.length
  · rw [if_pos h, if_pos (by omega)]
  · rw [if_neg h, if_neg (by omega), List.take_of_length_le (by omega), Nat.min_eq_right (by omega),
      List.drop_left]

/-- A field holds the digits of its number, and ends where no digit follows. -/
theorem field_eq_some_iff (h1 : 1 ≤ width) (h10 : width ≤ maxDigits) :
    field width text = some (n, rest) ↔
      n < 10 ^ width ∧ text = digits width n ++ rest ∧ NoDigit rest := by
  constructor
  · intro h
    obtain ⟨run, rest', rfl, hrun, hrest⟩ := exists_run text
    unfold field at h
    rw [number_run hrun hrest] at h
    split_ifs at h with hlen
    · simp only [List.length_append, Nat.add_sub_cancel] at h
      split_ifs at h with hwidth
      cases h
      rw [← hwidth]
      exact ⟨value_lt hrun, by rw [digits_value hrun], hrest⟩
  · rintro ⟨hn, rfl, hrest⟩
    unfold field
    rw [number_run (isRun_digits width n) hrest, length_digits, if_neg (by omega),
      value_digits_of_lt hn]
    simp only [List.length_append, length_digits, Nat.add_sub_cancel, if_true]

end Fields

theorem literal_eq_some_iff {b : UInt8} {text rest : Bytes} :
    literal b text = some rest ↔ text = b :: rest := by
  cases text with
  | nil =>
    constructor
    · intro h
      cases h
    · intro h
      cases h
  | cons c text =>
    constructor
    · intro h
      simp only [literal] at h
      split_ifs at h with hc
      cases h
      rw [hc]
    · intro h
      cases h
      exact if_pos rfl

end TextCodec.Decimal
