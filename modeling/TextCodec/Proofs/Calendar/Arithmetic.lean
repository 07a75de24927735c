import Mathlib.Algebra.BigOperators.Group.List.Basic
import Mathlib.Tactic.Common
import TextCodec.Proofs.Calendar.Words

/-!
# Exact arithmetic on instants

Adding a span to an instant adds integers: the result is the instant with the right count, or an
overflow if the calendar has no such instant (`DateTime.counts_add`). Subtraction goes by way of the
opposite span, which is clamped for the least one; that span is so long that it does not matter
(`DateTime.counts_sub`). So many steps go as far as all of them together, as long as each of them
stays in the calendar (`DateTime.milliseconds_travel`).
-/

namespace TextCodec.Calendar

namespace DateTime

/-- The result is the instant with count `n`, and an overflow if there is none. -/
structure Counts (result : Except Error DateTime) (n : Int) : Prop where
  found : 0 ≤ n → n ≤ maxMilliseconds →
    ∃ a : DateTime, result = .ok a ∧ a.Valid ∧ a.milliseconds = n
  refused : ¬(0 ≤ n ∧ n ≤ maxMilliseconds) → result = .error .arithmeticOverflow

theorem counts_ofMilliseconds (n : Int) : Counts (ofMilliseconds n) n := by
  refine ⟨fun h0 hmax => ?_, ofMilliseconds_eq_error⟩
  obtain ⟨a, ha⟩ := exists_milliseconds_eq_iff.2 ⟨h0, hmax⟩
  exact ⟨a, ofMilliseconds_eq_ok_iff.2 ha, ha⟩

/-! ## Sums and differences -/

section Sums

variable {a b : DateTime} (ha : a.Valid) (s : Span)

include ha

/-- The shortcut for the empty span changes nothing. -/
theorem add_eq_ofMilliseconds : a.add s = ofMilliseconds (a.milliseconds + s.toInt) := by
  unfold add
  split_ifs with hzero
  · rw [Span.isZero_iff.1 hzero, Int.add_zero, ofMilliseconds_eq_ok_iff.2 ⟨ha, rfl⟩]
  · rfl

theorem counts_add : Counts (a.add s) (a.milliseconds + s.toInt) := by
  rw [add_eq_ofMilliseconds ha]
  exact counts_ofMilliseconds _

/-- The opposite of the least span is clamped, but no instant is that far away. -/
theorem sub_eq_ofMilliseconds : a.sub s = ofMilliseconds (a.milliseconds - s.toInt) := by
  have h0 := milliseconds_nonneg ha
  unfold sub
  rw [add_eq_ofMilliseconds ha, Span.toInt_neg]
  by_cases hfits : -s.toInt ≤ Span.maxMs
  · rw [Int.min_eq_left hfits, Int.sub_eq_add_neg]
  · unfold Span.maxMs at hfits ⊢
    rw [ofMilliseconds_eq_error, ofMilliseconds_eq_error]
    · unfold maxMilliseconds
      omega
    · unfold maxMilliseconds
      omega

theorem counts_sub : Counts (a.sub s) (a.milliseconds - s.toInt) := by
  rw [sub_eq_ofMilliseconds ha]
  exact counts_ofMilliseconds _

omit s in
theorem toInt_since (hb : b.Valid) : (b.since a).toInt = b.milliseconds - a.milliseconds := by
  have h0 := milliseconds_nonneg ha
  have hmax := milliseconds_le ha
  have h0' := milliseconds_nonneg hb
  have hmax' := milliseconds_le hb
  unfold maxMilliseconds at hmax hmax'
  unfold since
  apply Span.toInt_mk
  · unfold Span.minMs
    omega
  · unfold Span.maxMs
    omega

omit s in
theorem add_since (hb : b.Valid) : a.add (b.since a) = .ok b := by
  rw [add_eq_ok_iff ha, toInt_since ha hb]
  exact ⟨hb, by omega⟩

end Sums

/-! ## Moves -/

/-- A step forward or back. -/
inductive Move where
  | forward (s : Span)
  | back (s : Span)
deriving DecidableEq, Repr

/-- The milliseconds of a step, negative if it goes back. -/
def Move.signed : Move → Int
  | forward s => s.toInt
  | back s => -s.toInt

def move (a : DateTime) : Move → Except Error DateTime
  | .forward s => a.add s
  | .back s => a.sub s

/-- Takes steps one after another, until one of them leaves the calendar. -/
def travel (a : DateTime) (moves : List Move) : Except Error DateTime := moves.foldlM move a

section Moves

variable {a b c : DateTime}

theorem move_eq_ofMilliseconds (ha : a.Valid) (m : Move) :
    a.move m = ofMilliseconds (a.milliseconds + m.signed) := by
  cases m with
  | forward s => exact add_eq_ofMilliseconds ha s
  | back s =>
    rw [Move.signed, ← Int.sub_eq_add_neg]
    exact sub_eq_ofMilliseconds ha s

/-- One step goes as far as it says. -/
theorem milliseconds_move (ha : a.Valid) {m : Move} (h : a.move m = .ok b) :
    b.Valid ∧ b.milliseconds = a.milliseconds + m.signed := by
  rw [move_eq_ofMilliseconds ha] at h
  exact ofMilliseconds_eq_ok_iff.1 h

/-- Many steps go as far as all of them together. -/
theorem milliseconds_travel (ha : a.Valid) {moves : List Move} (h : a.travel moves = .ok c) :
    c.Valid ∧ c.milliseconds = a.milliseconds + (moves.map Move.signed).sum := by
  induction moves generalizing a with
  | nil =>
    cases h
    exact ⟨ha, (Int.add_zero _).symm⟩
  | cons m moves ih =>
    obtain ⟨b, hmove, hrest⟩ := bind_eq_ok_iff.1 h
    obtain ⟨hb, hcount⟩ := milliseconds_move ha hmove
    obtain ⟨hc, hsum⟩ := ih hb hrest
    refine ⟨hc, ?_⟩
    rw [hsum, hcount, List.map_cons, List.sum_cons, Int.add_assoc]

/-- It does not matter in which order the steps are taken. -/
theorem travel_perm (ha : a.Valid) {moves moves' : List Move} (hperm : moves.Perm moves')
    (hb : a.travel moves = .ok b) (hc : a.travel moves' = .ok c) : b = c := by
  obtain ⟨hvalid, hcount⟩ := milliseconds_travel ha hb
  obtain ⟨hvalid', hcount'⟩ := milliseconds_travel ha hc
  apply milliseconds_inj hvalid hvalid'
  rw [hcount, hcount', (hperm.map Move.signed).sum_eq]

end Moves

/-! ## All together -/

/-- Arithmetic at an instant `a`, and between it and another. -/
structure Exact (a b : DateTime) : Prop where
  add (s : Span) : Counts (a.add s) (a.milliseconds + s.toInt)
  sub (s : Span) : Counts (a.sub s) (a.milliseconds - s.toInt)
  /-- Instants and the counts of the calendar correspond. -/
  range : 0 ≤ a.milliseconds ∧ a.milliseconds ≤ maxMilliseconds
  inverse : ofMilliseconds a.milliseconds = .ok a
  inverse' (n : Int) : Counts (ofMilliseconds n) n
  /-- Adding what lies between the instants leads from one to the other. -/
  since : (b.since a).toInt = b.milliseconds - a.milliseconds ∧ a.add (b.since a) = .ok b
  /-- Steps that stay in the calendar lead to the sum of the steps, in whatever order. -/
  travel (moves : List Move) (c : DateTime) : a.travel moves = .ok c →
    c.Valid ∧ c.milliseconds = a.milliseconds + (moves.map Move.signed).sum
  order (moves moves' : List Move) (c c' : DateTime) : moves.Perm moves' →
    a.travel moves = .ok c → a.travel moves' = .ok c' → c = c'

/-- **Arithmetic on instants is exact**, and so it is in machine words. -/
theorem exact_of_valid {a b : DateTime} (ha : a.Valid) (hb : b.Valid) :
    Exact a b ∧ InWords a b := by
  refine ⟨?_, inWords ha hb⟩
  exact {
    add := counts_add ha
    sub := counts_sub ha
    range := ⟨milliseconds_nonneg ha, milliseconds_le ha⟩
    inverse := ofMilliseconds_eq_ok_iff.2 ⟨ha, rfl⟩
    inverse' := counts_ofMilliseconds
    since := ⟨toInt_since ha hb, add_since ha hb⟩
    travel := fun _ _ => milliseconds_travel ha
    order := fun _ _ _ _ => travel_perm ha }

theorem exact_first_and_last :
    (first.Valid ∧ last.Valid) ∧ Exact first last ∧ InWords first last :=
  ⟨by decide, exact_of_valid (by decide) (by decide)⟩

end DateTime

end TextCodec.Calendar
