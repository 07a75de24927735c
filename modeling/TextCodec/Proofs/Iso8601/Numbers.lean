import Mathlib.Data.List.TakeWhile
import Mathlib.Data.Nat.Digits.Defs
import Mathlib.Tactic.Common
import TextCodec.Proofs.Guarded
import TextCodec.Proofs.Iso8601.DateTexts
import TextCodec.Proofs.Iso8601.Writer

/-!
# Numbers in their fields

A number is written from its last digit on, and read from its first. The two are inverse to each
other for every width that a reader has, leading zeros included (`field_writer_inverse`).

The reader collects a number in a word, digit by digit. `value?` repeats that and fails where a word
does not hold what it should. A run of digits whose greatest number fits never makes it fail
(`value?_eq`), and ten digits fit a word of 64 bits.
-/

namespace TextCodec

open Calendar Iso8601

namespace Decimal

/-! ## Words -/

/-- A number with one more digit at its end, in words of so many bits. -/
def push? (bits n digit : Nat) : Option Nat := do
  let tens ← fit? bits (n * 10)
  fit? bits (tens + digit)

/-- The number that a digit stands for. -/
def digitValue? (b : UInt8) : Option Nat := sub? b.toNat 48

/-- The number that a run of digits denotes, in words of so many bits. -/
def value? (bits : Nat) (run : Bytes) : Option Nat :=
  run.foldlM (fun n b => do push? bits n (← digitValue? b)) 0

/-- A number in a word of 64 bits. -/
def number64? (text : Bytes) : Guarded Error (Nat × Bytes) := do
  let run := (text.take (maxDigits + 1)).takeWhile isDigit
  if run.length = 0 ∨ maxDigits < run.length then throw .malformedText
  else do
    let n ← value? 64 run
    return (n, text.drop run.length)

/-- A number of exactly `width` digits, in a word of 64 bits. -/
def field64? (width : Nat) (text : Bytes) : Guarded Error (Nat × Bytes) := do
  let (n, rest) ← number64? text
  let read ← sub? text.length rest.length
  if read = width then return (n, rest) else throw .malformedText

section Words

variable {b : UInt8} {run text rest : Bytes} {bits width n : Nat}

theorem digitValue?_eq (h : isDigit b = true) : digitValue? b = some (digitValue b) := by
  simp only [isDigit, Bool.and_eq_true, decide_eq_true_eq] at h
  exact if_pos h.1

theorem push?_eq {digit : Nat} (h : 10 * n + digit < 2 ^ bits) :
    push? bits n digit = some (10 * n + digit) := by
  unfold push?
  rw [fit?_bind (by omega), Nat.mul_comm]
  exact if_pos h

theorem value?_append_singleton (bits : Nat) (run : Bytes) (b : UInt8) :
    value? bits (run ++ [b]) =
      value? bits run >>= fun n => digitValue? b >>= fun digit => push? bits n digit := by
  simp [value?]

/-- A run fits if the greatest number of its length does. -/
theorem value?_eq (hrun : IsRun run) (hbits : 10 ^ run.length ≤ 2 ^ bits) :
    value? bits run = some (value run) := by
  induction run using List.reverseRecOn with
  | nil => rfl
  | append_singleton run b ih =>
    have hb : isDigit b = true := hrun b (by simp)
    have hlt := value_lt hrun
    rw [value_append_singleton] at hlt ⊢
    rw [List.length_append, List.length_singleton, Nat.pow_succ] at hbits hlt
    have hbefore := ih (fun c hc => hrun c (by simp [hc])) (by omega)
    rw [value?_append_singleton, bind_of_eq_some hbefore, bind_of_eq_some (digitValue?_eq hb),
      push?_eq (by omega)]

/-- The number of a run is the sum of its digits, each times its power of ten. -/
theorem value_eq_ofDigits (run : Bytes) :
    value run = Nat.ofDigits 10 (run.reverse.map digitValue) := by
  induction run using List.reverseRecOn with
  | nil => rfl
  | append_singleton run b ih =>
    rw [value_append_singleton, ih, List.reverse_append, List.reverse_singleton,
      List.singleton_append, List.map_cons, Nat.ofDigits_cons, Nat.add_comm]

theorem computes_number (text : Bytes) :
    Computes (number64? text) (expect .malformedText (number text))
      fun p => p.2.length ≤ text.length := by
  unfold number64? number
  dsimp only
  generalize hrun : (text.take (maxDigits + 1)).takeWhile isDigit = run
  split_ifs with hlen
  · exact .throw _
  · have hdigits : IsRun run := fun b hb => List.mem_takeWhile_imp (hrun ▸ hb)
    have hbits : 10 ^ run.length ≤ 2 ^ 64 := by
      unfold maxDigits at hlen
      calc 10 ^ run.length ≤ 10 ^ 10 := Nat.pow_le_pow_right (by decide) (by omega)
        _ ≤ 2 ^ 64 := by decide
    refine .bind_some (value?_eq hdigits hbits) (.pure ?_)
    simp

theorem computes_field (width : Nat) (text : Bytes) :
    Computes (field64? width text) (expect .malformedText (field width text)) fun _ => True := by
  have hfield : expect Error.malformedText (field width text) =
      expect .malformedText (number text) >>= fun p =>
        if text.length - p.2.length = width then .ok p else .error .malformedText := by
    unfold field
    cases number text with
    | none => rfl
    | some p =>
      show expect _ (if _ then _ else _) = ite _ _ _
      split_ifs <;> rfl
  rw [hfield]
  refine .bind (computes_number text) fun p hp => ?_
  exact .bind_some (if_pos hp) (.ite (fun _ => .pure trivial) fun _ => .throw _)

end Words

/-! ## Fields -/

section Fields

variable {run text rest : Bytes} {width n : Nat}

/-- A field is a run of so many digits that no digit follows. -/
theorem field_eq_some_iff_isNumber (h1 : 1 ≤ width) (h10 : width ≤ maxDigits) :
    field width text = some (n, rest) ↔
      ∃ run, text = run ++ rest ∧ IsNumber width run n ∧ NoDigit rest := by
  rw [field_eq_some_iff h1 h10]
  constructor
  · rintro ⟨hlt, rfl, hrest⟩
    exact ⟨digits width n, rfl, isNumber_digits hlt, hrest⟩
  · rintro ⟨run, rfl, hrun, hrest⟩
    obtain ⟨hlt, rfl⟩ := isNumber_iff.1 hrun
    exact ⟨hlt, rfl, hrest⟩

/-- The digits of a number are written for it. -/
theorem writes_of_isNumber {n : UInt32} (h : IsNumber width run n.toNat) :
    Writes (Writer.number width n) run := by
  have hwrites := writes_number width n.toNat_lt
  rwa [UInt32.ofNat_toNat, ← (isNumber_iff.1 h).2] at hwrites

end Fields

/-- **Writing and reading numbers are inverse.** For each width from one to ten, a number that has
so few digits is written as a run that is read back, whatever follows it, if this is no digit. What
is read is a run of just so many digits, which no digit follows, and the number is the sum of its
digits, each times its power of ten. Writing the number gives the run again. No word of the reader
wraps around. -/
theorem field_writer_inverse (width : Nat) (h1 : 1 ≤ width) (h10 : width ≤ 10) :
    (∀ n : UInt32, n.toNat < 10 ^ width → ∃ run, run.length = width ∧
        Writes (Writer.number width n) run ∧
        ∀ rest, NoDigit rest → field width (run ++ rest) = some (n.toNat, rest)) ∧
      ∀ text,
        (∀ n rest, field width text = some (n, rest) ↔
          ∃ run, text = run ++ rest ∧ run.length = width ∧ IsRun run ∧ NoDigit rest ∧
            n = Nat.ofDigits 10 (run.reverse.map digitValue)) ∧
        (∀ (n : UInt32) rest, field width text = some (n.toNat, rest) →
          Writes (Writer.number width n) (text.take width)) ∧
        (field64? width text).run = some (expect .malformedText (field width text)) := by
  have hiff : ∀ text n rest, field width text = some (n, rest) ↔ _ :=
    fun text n rest => field_eq_some_iff_isNumber h1 h10
  refine ⟨fun n hn => ?_, fun text => ⟨fun n rest => ?_, fun n rest hread => ?_, ?_⟩⟩
  · have hrun := isNumber_digits hn
    exact ⟨digits width n.toNat, hrun.length_eq, writes_of_isNumber hrun,
      fun rest hrest => (hiff _ _ _).2 ⟨_, rfl, hrun, hrest⟩⟩
  · rw [hiff]
    constructor
    · rintro ⟨run, rfl, hrun, hrest⟩
      refine ⟨run, rfl, hrun.length_eq, hrun.isRun, hrest, ?_⟩
      rw [← value_eq_ofDigits, hrun.value_eq]
    · rintro ⟨run, rfl, hlen, hrun, hrest, hn⟩
      exact ⟨run, rfl, ⟨hrun, hlen, by rw [hn, value_eq_ofDigits]⟩, hrest⟩
  · obtain ⟨run, rfl, hrun, -⟩ := (hiff _ _ _).1 hread
    rw [← hrun.length_eq, List.take_left, hrun.length_eq]
    exact writes_of_isNumber hrun
  · exact (computes_field width text).run_eq

/-- Ten places for the greatest word that is written. -/
theorem field_writer_inverse_greatest :
    let n : UInt32 := 4294967295
    let run : Bytes := Bytes.ofString "4294967295"
    let rest : Bytes := Bytes.ofString "-"
    (1 ≤ 10 ∧ 10 ≤ 10 ∧ n.toNat < 10 ^ 10 ∧ NoDigit rest) ∧
      field 10 (run ++ rest) = some (n.toNat, rest) ∧
      Writes (Writer.number 10 n) ((run ++ rest).take 10) ∧
      ∃ written, written.length = 10 ∧ Writes (Writer.number 10 n) written ∧
        field 10 (written ++ rest) = some (n.toNat, rest) := by
  intro n run rest
  have hn : n.toNat < 10 ^ 10 := by decide
  have hrest : NoDigit rest := noDigit_cons (by decide) []
  have hread : field 10 (run ++ rest) = some (n.toNat, rest) := by decide +kernel
  obtain ⟨hwrite, hparse⟩ := field_writer_inverse 10 (by decide) (by decide)
  obtain ⟨written, hlen, hwrites, hback⟩ := hwrite n hn
  exact ⟨⟨by decide, by decide, hn, hrest⟩, hread, (hparse _).2.1 n rest hread, written, hlen,
    hwrites, hback rest hrest⟩

end Decimal

end TextCodec
