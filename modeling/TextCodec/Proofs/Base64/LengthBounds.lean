import Mathlib.Tactic.Common
import TextCodec.Base64.Length

/-!
# Lengths against each other

Four encoded bytes decode to three, so `maxDecodedLength` has to give room for three quarters of a
length. It adds 3 to round up to whole groups, but this sum stops at the greatest length. The two
greatest lengths are rounded down instead, and get less room than they need
(`le_maxDecodedLength_iff`).

The room for an encoding is at most two bytes more than what was encoded. It is never less, unless
the encoding itself has one of these two lengths (`le_maxDecodedLength_encodedLength_iff`). Padded
encodings are whole groups and have neither.

Lengths are computed with words of 64 bits. `maxDecodedLength64?` and `encodedLength64?` repeat the
computations and fail where a word does not hold its number. That never happens to the first, and to
the second exactly if no word holds the length of the encoding.
-/

namespace TextCodec.Base64

/-! ## Words -/

namespace Word

/-- The word of a number, unless it does not fit. -/
def word64? (n : Nat) : Option UInt64 := if n ≤ maxLength then some (.ofNat n) else none

def add64? (x y : UInt64) : Option UInt64 := word64? (x.toNat + y.toNat)

def mul64? (x y : UInt64) : Option UInt64 := word64? (x.toNat * y.toNat)

/-- The sum, or the greatest word if it does not fit. -/
def saturatingAdd64 (x y : UInt64) : UInt64 := (add64? x y).getD (.ofNat maxLength)

theorem toNat_ofNat64 {n : Nat} (h : n ≤ maxLength) : (UInt64.ofNat n).toNat = n :=
  UInt64.toNat_ofNat_of_lt' (Nat.lt_succ_of_le h)

theorem toNat_le_maxLength (x : UInt64) : x.toNat ≤ maxLength := Nat.le_of_lt_succ x.toNat_lt

theorem word64?_eq_some_iff {n : Nat} {x : UInt64} : word64? n = some x ↔ n = x.toNat := by
  unfold word64?
  split_ifs with h
  · rw [Option.some.injEq, ← UInt64.toNat_inj, toNat_ofNat64 h]
  · constructor
    · simp
    · rintro rfl
      exact absurd (toNat_le_maxLength x) h

theorem toNat_saturatingAdd64 (x y : UInt64) :
    (saturatingAdd64 x y).toNat = addLength x.toNat y.toNat := by
  unfold saturatingAdd64 add64? word64? addLength
  split_ifs with h
  · rw [Option.getD_some, toNat_ofNat64 h, Nat.min_eq_left h]
  · rw [Option.getD_none, toNat_ofNat64 (Nat.le_refl _), Nat.min_eq_right (Nat.le_of_not_le h)]

end Word

/-- Room for whatever `n` encoded bytes decode to. -/
def maxDecodedLength64? (n : UInt64) : Option UInt64 :=
  Word.mul64? (Word.saturatingAdd64 n 3 / 4) 3

/-- The number of symbols for `n` bytes of a group that is not whole. -/
def partialLength64? (n : UInt64) : Option UInt64 := if n = 0 then some 0 else Word.add64? n 1

/-- The length of the encoding of `n` bytes. -/
def encodedLength64? (n : UInt64) (padded : Bool) : Option UInt64 :=
  if padded then Word.mul64? (Word.saturatingAdd64 n 2 / 3) 4
  else do
    let groups ← Word.mul64? (n / 3) 4
    let tail ← partialLength64? (n % 3)
    Word.add64? groups tail

section Words

variable {n m : UInt64}

theorem maxDecodedLength64?_eq_some_iff :
    maxDecodedLength64? n = some m ↔ maxDecodedLength n.toNat = m.toNat := by
  unfold maxDecodedLength64? Word.mul64? maxDecodedLength
  rw [Word.word64?_eq_some_iff, UInt64.toNat_div, Word.toNat_saturatingAdd64]
  rfl

/-- Room always fits. -/
theorem exists_maxDecodedLength64? (n : UInt64) :
    ∃ m, maxDecodedLength64? n = some m ∧ m.toNat = maxDecodedLength n.toNat := by
  have hfits : maxDecodedLength n.toNat ≤ maxLength := by
    unfold maxDecodedLength addLength
    omega
  exact ⟨.ofNat (maxDecodedLength n.toNat),
    maxDecodedLength64?_eq_some_iff.2 (Word.toNat_ofNat64 hfits).symm, Word.toNat_ofNat64 hfits⟩

theorem partialLength64?_eq_some_iff :
    partialLength64? n = some m ↔ (if n.toNat = 0 then 0 else n.toNat + 1) = m.toNat := by
  have hzero : n = 0 ↔ n.toNat = 0 := UInt64.toNat_inj.symm
  unfold partialLength64?
  simp only [hzero]
  split_ifs
  · rw [Option.some.injEq, ← UInt64.toNat_inj]
    rfl
  · exact Word.word64?_eq_some_iff

/-- An encoding has a length in words exactly if its length fits. -/
theorem encodedLength64?_eq_some_iff {padded : Bool} :
    encodedLength64? n padded = some m ↔ encodedLength n.toNat padded = m.toNat := by
  cases padded with
  | true =>
    simp only [encodedLength64?, encodedLength, Word.mul64?, if_true]
    rw [Word.word64?_eq_some_iff, UInt64.toNat_div, Word.toNat_saturatingAdd64]
    rfl
  | false =>
    have hdiv : (n / 3).toNat = n.toNat / 3 := UInt64.toNat_div n 3
    have hmod : (n % 3).toNat = n.toNat % 3 := UInt64.toNat_mod n 3
    have hfour : (4 : UInt64).toNat = 4 := rfl
    simp only [encodedLength64?, encodedLength, Bool.false_eq_true, if_false, Word.mul64?,
      Word.add64?, Option.bind_eq_bind, Option.bind_eq_some_iff, Word.word64?_eq_some_iff,
      partialLength64?_eq_some_iff, hdiv, hmod, hfour]
    constructor
    · rintro ⟨groups, hgroups, tail, htail, hsum⟩
      rw [← hsum, hgroups, htail]
    · intro h
      have hle := Word.toNat_le_maxLength m
      have hgroups := Word.toNat_ofNat64 (n := n.toNat / 3 * 4) (by omega)
      have htail := Word.toNat_ofNat64 (n := if n.toNat % 3 = 0 then 0 else n.toNat % 3 + 1)
        (by omega)
      exact ⟨_, hgroups.symm, _, htail.symm, by rw [hgroups, htail, h]⟩

end Words

/-! ## Bounds -/

/-- Only the two greatest lengths get less room than they need. -/
theorem le_maxDecodedLength_iff {m : Nat} (h : m ≤ maxLength) :
    3 * m / 4 ≤ maxDecodedLength m ↔ m + 2 ≤ maxLength := by
  unfold maxDecodedLength addLength
  unfold maxLength at *
  omega

section Encoding

variable {n : Nat} {padded : Bool} (h : encodedLength n padded ≤ maxLength)

include h

theorem le_maxDecodedLength_encodedLength_iff :
    n ≤ maxDecodedLength (encodedLength n padded) ↔
      padded = true ∨ encodedLength n padded + 2 ≤ maxLength := by
  unfold maxDecodedLength
  unfold encodedLength addLength maxLength at *
  cases padded with
  | true =>
    simp only [if_true, true_or, iff_true] at *
    omega
  | false =>
    simp only [Bool.false_eq_true, if_false, false_or] at *
    split_ifs at * <;> omega

theorem maxDecodedLength_encodedLength_le :
    maxDecodedLength (encodedLength n padded) ≤ n + 2 := by
  unfold maxDecodedLength
  unfold encodedLength addLength maxLength at *
  split_ifs at * <;> omega

end Encoding

/-- **Lengths bound each other, but for the greatest two.** There is room for three quarters of a
length, if and only if two other lengths follow it. Of what has an encoding of this length, the room
is at most two bytes more. It is not less, if and only if the encoding is padded or two other
lengths follow. -/
theorem room_of_length (m : UInt64) :
    (∃ room, maxDecodedLength64? m = some room ∧ room.toNat = maxDecodedLength m.toNat) ∧
      (3 * m.toNat / 4 ≤ maxDecodedLength m.toNat ↔ m.toNat + 2 ≤ maxLength) ∧
      ∀ (n : UInt64) (padded : Bool), encodedLength n.toNat padded = m.toNat →
        encodedLength64? n padded = some m ∧
        (n.toNat ≤ maxDecodedLength m.toNat ↔ padded = true ∨ m.toNat + 2 ≤ maxLength) ∧
        maxDecodedLength m.toNat ≤ n.toNat + 2 := by
  have hle := Word.toNat_le_maxLength m
  refine ⟨exists_maxDecodedLength64? m, le_maxDecodedLength_iff hle, fun n padded hm => ?_⟩
  have hword := encodedLength64?_eq_some_iff.2 hm
  rw [← hm] at hle ⊢
  exact ⟨hword, le_maxDecodedLength_encodedLength_iff hle, maxDecodedLength_encodedLength_le hle⟩

/-- The last whole groups that have a length. -/
theorem room_of_length_whole_groups :
    let n : UInt64 := 13835058055282163709
    let m : UInt64 := 18446744073709551612
    encodedLength n.toNat false = m.toNat ∧ encodedLength64? n false = some m ∧
      m.toNat + 2 ≤ maxLength ∧ n.toNat ≤ maxDecodedLength m.toNat ∧
      maxDecodedLength m.toNat ≤ n.toNat + 2 := by
  intro n m
  have hm : encodedLength n.toNat false = m.toNat := by decide
  have hle : m.toNat + 2 ≤ maxLength := by decide
  obtain ⟨-, -, hencoded⟩ := room_of_length m
  obtain ⟨hword, hiff, hroom⟩ := hencoded n false hm
  exact ⟨hm, hword, hle, hiff.2 (Or.inr hle), hroom⟩

/-- The greatest length, and an encoding that is one byte shorter. -/
theorem maxDecodedLength_greatest_lt :
    (maxDecodedLength64? 18446744073709551615 = some 13835058055282163709 ∧
        maxDecodedLength 18446744073709551615 < 3 * 18446744073709551615 / 4) ∧
      encodedLength64? 13835058055282163710 false = some 18446744073709551614 ∧
      maxDecodedLength 18446744073709551614 < 13835058055282163710 := by
  decide +kernel

end TextCodec.Base64
