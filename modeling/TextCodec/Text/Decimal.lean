import TextCodec.Text.Bytes
/-!
# Decimal fields

Numbers stand in texts as fields of fixed width, padded with zeros. `digits` writes such a field
and `field` reads it back: a field is followed by a byte that is no digit, or by the end.
-/

namespace TextCodec

/-- Reads a value from the front of a text, and returns it with what follows. -/
abbrev Reader (α : Type) := Bytes → Option (α × Bytes)

namespace Decimal

/-- Whether a byte is one of the ten ASCII digits. -/
def isDigit (b : UInt8) : Bool := 48 ≤ b.toNat && b.toNat ≤ 57

/-- The number that a digit stands for. -/
def digitValue (b : UInt8) : Nat := b.toNat - 48

/-- The lowest decimal digit of `n`. -/
def lastDigit (n : Nat) : UInt8 := UInt8.ofNat (48 + n % 10)

/-! ## Writing -/

/-- The lowest `width` decimal digits of `n`, the most significant one first. -/
def digits : (width n : Nat) → Bytes
  | 0, _ => []
  | width + 1, n => digits width (n / 10) ++ [lastDigit n]

theorem length_digits (width n : Nat) : (digits width n).length = width := by
  induction width generalizing n with
  | zero => rfl
  | succ width ih => simp [digits, ih]

theorem isDigit_lastDigit (n : Nat) : isDigit (lastDigit n) = true := by
  simp only [isDigit, lastDigit, UInt8.toNat_ofNat', Bool.and_eq_true, decide_eq_true_eq]
  omega

theorem digitValue_lastDigit (n : Nat) : digitValue (lastDigit n) = n % 10 := by
  simp only [digitValue, lastDigit, UInt8.toNat_ofNat']
  omega

theorem isDigit_of_mem_digits {width n : Nat} {b : UInt8} (h : b ∈ digits width n) :
    isDigit b = true := by
  induction width generalizing n with
  | zero => simp [digits] at h
  | succ width ih =>
    rw [digits, List.mem_append, List.mem_singleton] at h
    rcases h with h | rfl
    · exact ih h
    · exact isDigit_lastDigit n

/-! ## Reading -/

/-- The number that a run of digits denotes. -/
def value (run : Bytes) : Nat := run.foldl (fun n b => 10 * n + digitValue b) 0

theorem value_append_singleton (run : Bytes) (b : UInt8) :
    value (run ++ [b]) = 10 * value run + digitValue b := by
  simp [value]

/-- The most digits that a number has, which keeps it below `10 ^ 10`. -/
def maxDigits : Nat := 10

/-- A number: the longest run of digits, refused if it is empty or has more than `maxDigits`. One
digit beyond the limit is enough to tell. -/
def number : Reader Nat := fun text =>
  let run := (text.take (maxDigits + 1)).takeWhile isDigit
  if run.length = 0 ∨ maxDigits < run.length then none
  else some (value run, text.drop run.length)

/-- A number of exactly `width` digits. -/
def field (width : Nat) : Reader Nat := fun text =>
  match number text with
  | some (n, rest) => if text.length - rest.length = width then some (n, rest) else none
  | none => none

theorem takeWhile_append {p : UInt8 → Bool} {run rest : Bytes} (h : ∀ b ∈ run, p b = true)
    (hr : ∀ b, rest.head? = some b → p b = false) : (run ++ rest).takeWhile p = run := by
  induction run with
  | nil =>
    cases rest with
    | nil => rfl
    | cons b rest => rw [List.nil_append, List.takeWhile_cons, hr b rfl]; rfl
  | cons b run ih =>
    rw [List.cons_append, List.takeWhile_cons, if_pos (h b (by simp)),
      ih fun b hb => h b (by simp [hb])]

/-- What follows a byte that has to come first. -/
def literal (b : UInt8) : Bytes → Option Bytes
  | [] => none
  | c :: rest => if c = b then some rest else none

end Decimal

end TextCodec
