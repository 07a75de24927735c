import Mathlib.Tactic.Common

/-!
# Comparing part by part

Numbers are compared by their difference (`compare_of_sub_eq`), and a number of two places by the
upper place before the lower one (`compare_mul_add`). Lists are compared from the front on, so those
of a fixed length are compared before what follows them (`compare_append`).
-/

namespace TextCodec

section Numbers

theorem compare_natCast (m n : Nat) : compare (m : Int) n = compare m n := by
  cases h : compare m n with
  | lt => exact Int.compare_eq_lt.2 (Int.ofNat_lt.2 (Nat.compare_eq_lt.1 h))
  | eq => exact Int.compare_eq_eq.2 (congrArg Nat.cast (Nat.compare_eq_eq.1 h))
  | gt => exact Int.compare_eq_gt.2 (Int.ofNat_lt.2 (Nat.compare_eq_gt.1 h))

/-- Numbers that are equally far apart are ordered alike. -/
theorem compare_of_sub_eq {i j m n : Int} (h : i - j = m - n) : compare i j = compare m n := by
  cases hc : compare m n with
  | lt =>
    have hlt := Int.compare_eq_lt.1 hc
    exact Int.compare_eq_lt.2 (by omega)
  | eq =>
    have heq := Int.compare_eq_eq.1 hc
    exact Int.compare_eq_eq.2 (by omega)
  | gt =>
    have hgt := Int.compare_eq_gt.1 hc
    exact Int.compare_eq_gt.2 (by omega)

/-- The lower place decides only if the upper ones are equal. -/
theorem compare_mul_add {m n k i j : Nat} (hi : i < k) (hj : j < k) :
    compare (m * k + i) (n * k + j) = (compare m n).then (compare i j) := by
  have hcarry : ∀ {m n i j : Nat}, i < k → m < n → m * k + i < n * k + j := by
    intro m n i j hi hlt
    have hle := Nat.mul_le_mul_right k (Nat.succ_le_of_lt hlt)
    rw [Nat.succ_mul] at hle
    omega
  cases hc : compare m n with
  | lt => exact Nat.compare_eq_lt.2 (hcarry hi (Nat.compare_eq_lt.1 hc))
  | eq =>
    obtain rfl := Nat.compare_eq_eq.1 hc
    show _ = compare i j
    rw [← compare_natCast, ← compare_natCast i j]
    exact compare_of_sub_eq (by omega)
  | gt => exact Nat.compare_eq_gt.2 (hcarry hj (Nat.compare_eq_gt.1 hc))

end Numbers

section Lists

variable {α : Type} [Ord α]

theorem compare_append {a b : List α} (h : a.length = b.length) (c d : List α) :
    compare (a ++ c) (b ++ d) = (compare a b).then (compare c d) := by
  induction a generalizing b with
  | nil =>
    obtain rfl := List.length_eq_zero_iff.1 h.symm
    rfl
  | cons x a ih =>
    cases b with
    | nil => cases h
    | cons y b =>
      rw [List.cons_append, List.cons_append, List.compare_cons_cons, List.compare_cons_cons,
        ih (Nat.succ.inj h), Ordering.then_assoc]

end Lists

end TextCodec
