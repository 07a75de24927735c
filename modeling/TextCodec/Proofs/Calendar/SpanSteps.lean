import Mathlib.Tactic.Common
import TextCodec.Calendar.Steps
import TextCodec.Proofs.Calendar.Offsets

/-!
# Spans as integers

Steps on a span are steps on an integer, of which every number has to fit a span (`Step.exact`).
There is one exception: the opposite of the least span does not fit, and it is not refused but
clamped to the greatest span (`Step.clamped`).

A sequence of steps is answered one step after the other, and each answer depends on the one before
it. So if a step on one kind of value shows as a step on another kind, sequences do
(`answers_map_eq`). In this way spans are shown as integers, and words of 64 bits as spans
(`Span.answers_clamped`).
-/

namespace TextCodec.Calendar

/-- Two kinds of steps that show each other lead to answers that do. -/
theorem answers_map_eq {σ τ ρ step : Type} {f : step → σ → Except Error (σ × ρ)}
    {g : step → τ → Except Error (τ × ρ)} (view : σ → τ)
    (hstep : ∀ s a, (f s a).map (Prod.map view id) = g s (view a)) (a : σ) (steps : List step) :
    (answers f a steps).map (Except.map (Prod.map view id)) = answers g (view a) steps := by
  induction steps generalizing a with
  | nil => rfl
  | cons s steps ih =>
    have hfirst := hstep s a
    unfold answers
    cases hs : f s a with
    | error e =>
      rw [hs] at hfirst
      rw [← hfirst]
      exact congrArg (List.cons _) (ih a)
    | ok reply =>
      rw [hs] at hfirst
      rw [← hfirst]
      exact congrArg (List.cons _) (ih reply.1)

namespace Span

/-! ## Steps on integers -/

/-- The number itself, if a span can have so many milliseconds. -/
def fits (n : Int) : Except Error Int :=
  if minMs ≤ n ∧ n ≤ maxMs then .ok n else .error .arithmeticOverflow

/-- The milliseconds of an amount. -/
def Amount.toInt (a : Amount) : Int := a.count.toInt * a.unit.ms

/-- A step on integers. Each number that it comes to has to fit. -/
def Step.exact : Step → Int → Except Error (Int × Option Ordering)
  | set a, _ => do return (← fits a.toInt, none)
  | add a, n => do return (← fits (n + (← fits a.toInt)), none)
  | neg, n => do return (← fits (-n), none)
  | compare a, n => do return (n, some (Ord.compare n (← fits a.toInt)))

/-- A step on integers, where the opposite of the least number that fits is the greatest. -/
def Step.clamped (s : Step) (n : Int) : Except Error (Int × Option Ordering) :=
  if s = neg ∧ n = minMs then .ok (maxMs, none) else s.exact n

section Exact

variable {α β : Type}

/-- What is done with a span shows as what is done with its integer, and so does that no span
fits. -/
theorem map_ofInt_bind (view : α → β) {f : Span → Except Error α} {g : Int → Except Error β}
    (hview : ∀ d, (f d).map view = g d.toInt) (n : Int) :
    (ofInt n >>= f).map view = fits n >>= g := by
  unfold ofInt fits
  split_ifs with h
  · have hexact := hview ⟨Int64.ofInt n⟩
    rwa [toInt_mk h.1 h.2] at hexact
  · rfl

theorem fits_neg {d : Span} (h : d.toInt ≠ minMs) : fits (-d.toInt) = .ok d.neg.toInt := by
  have hmin := d.minMs_le_toInt
  have hmax := d.toInt_le_maxMs
  have hneg := toInt_neg d
  unfold fits
  unfold minMs maxMs at *
  rw [if_pos (by omega), hneg, Int.min_eq_left (by omega)]

/-- Only the opposite of the least span is not exact. -/
theorem map_neg (d : Span) :
    (Step.neg.apply d).map (Prod.map toInt id) = Step.clamped .neg d.toInt := by
  show Except.ok (d.neg.toInt, none) = _
  unfold Step.clamped
  split_ifs with h
  · rw [toInt_neg, h.2]
    rfl
  · simp only [Step.exact]
    rw [fits_neg fun hmin => h ⟨rfl, hmin⟩]
    rfl

/-- A step on a span shows as a step on its integer. -/
theorem map_apply (s : Step) (d : Span) :
    (s.apply d).map (Prod.map toInt id) = s.clamped d.toInt := by
  cases s with
  | set a => exact map_ofInt_bind _ (fun _ => rfl) _
  | add a =>
    refine map_ofInt_bind _ (fun r => ?_) _
    exact map_ofInt_bind _ (fun _ => rfl) (d.toInt + r.toInt)
  | neg => exact map_neg d
  | compare a => exact map_ofInt_bind _ (fun _ => rfl) _

end Exact

/-! ## Opposites -/

section Opposites

variable {d e : Span}

theorem add_neg_eq_ok_zero_iff : d.add d.neg = .ok zero ↔ d.toInt ≠ minMs := by
  have hmin := d.minMs_le_toInt
  have hzero : zero.toInt = 0 := rfl
  unfold add
  rw [ofInt_eq_ok_iff, toInt_neg, hzero]
  unfold minMs maxMs at *
  omega

theorem neg_neg_eq_iff : d.neg.neg = d ↔ d.toInt ≠ minMs := by
  have hmin := d.minMs_le_toInt
  have hmax := d.toInt_le_maxMs
  rw [← toInt_inj, toInt_neg, toInt_neg]
  unfold minMs maxMs at *
  omega

/-- Opposites are ordered the other way. Only the least two spans have the same. -/
theorem compare_neg_iff : compare d.neg e.neg = compare e d ↔
    ¬(min d.toInt e.toInt = minMs ∧ max d.toInt e.toInt = minMs + 1) := by
  have hd := d.minMs_le_toInt
  have he := e.minMs_le_toInt
  show compare d.neg.toInt e.neg.toInt = compare e.toInt d.toInt ↔ _
  rw [toInt_neg, toInt_neg]
  unfold minMs maxMs at *
  cases h : compare e.toInt d.toInt with
  | lt =>
    rw [Int.compare_eq_lt] at h ⊢
    omega
  | eq =>
    rw [Int.compare_eq_eq] at h ⊢
    omega
  | gt =>
    rw [Int.compare_eq_gt] at h ⊢
    omega

end Opposites

/-! ## Steps in words -/

def add64 (s t : Span) : Except Error Span :=
  match Word.checkedAdd s.milliseconds t.milliseconds with
  | some n => .ok ⟨n⟩
  | none => .error .arithmeticOverflow

def neg64 (s : Span) : Span := ⟨Word.saturatingNeg s.milliseconds⟩

def Step.apply64 : Step → Span → Except Error (Span × Option Ordering)
  | set a, _ => do return (← a.toSpan64, none)
  | add a, s => do return (← s.add64 (← a.toSpan64), none)
  | neg, s => .ok (s.neg64, none)
  | compare a, s => do
    return (s, some (Ord.compare s.milliseconds (← a.toSpan64).milliseconds))

section Words

theorem add64_eq (s t : Span) : s.add64 t = s.add t := by
  have hsum := Word.checkedAdd_cases s.milliseconds t.milliseconds
  unfold add64
  rcases hsum with ⟨hsum, hexact⟩ | ⟨hsum, hout⟩
  · rw [hsum, eq_comm]
    exact ofInt_eq_ok_iff.2 hexact
  · rw [hsum]
    exact (if_neg hout).symm

theorem neg64_eq (s : Span) : s.neg64 = s.neg := by
  rw [← toInt_inj, toInt_neg]
  exact Word.toInt_saturatingNeg

theorem compare_words (s t : Span) :
    Ord.compare s.milliseconds t.milliseconds = Ord.compare s t := by
  show compareOfLessAndEq _ _ = compareOfLessAndEq s.toInt t.toInt
  simp only [compareOfLessAndEq, Int64.lt_iff_toInt_lt, ← Int64.toInt_inj]
  rfl

theorem apply64_eq (s : Step) (d : Span) : s.apply64 d = s.apply d := by
  cases s <;>
    simp only [Step.apply64, Step.apply, Amount.toSpan64_eq, add64_eq, neg64_eq, compare_words]

end Words

/-! ## Sequences -/

/-- **Steps on spans are exact or refused, but for one.** In any sequence of steps from zero, a step
finds the integer that it stands for, and is refused exactly if this does not fit a span. Only the
opposite of the least span is clamped. So it is in machine words. A span and its opposite add up to
zero, and the opposite of the opposite is the span, if and only if it is not the least. Opposites
are ordered the other way, if and only if the spans are not the least two. -/
theorem answers_clamped (steps : List Step) :
    ((answers Step.apply zero steps).map (Except.map (Prod.map toInt id)) =
        answers Step.clamped 0 steps ∧
      answers Step.apply64 zero steps = answers Step.apply zero steps) ∧
      (∀ d : Span, (d.add d.neg = .ok zero ↔ d.toInt ≠ minMs) ∧
        (d.neg.neg = d ↔ d.toInt ≠ minMs)) ∧
      ∀ d e : Span, compare d.neg e.neg = compare e d ↔
        ¬(min d.toInt e.toInt = minMs ∧ max d.toInt e.toInt = minMs + 1) := by
  have hwords : Step.apply64 = Step.apply := by
    funext s d
    exact apply64_eq s d
  exact ⟨⟨answers_map_eq toInt map_apply zero steps, by rw [hwords]⟩,
    fun _ => ⟨add_neg_eq_ok_zero_iff, neg_neg_eq_iff⟩, fun _ _ => compare_neg_iff⟩

/-- The least span is turned around, and no overflow is reported. -/
theorem answers_neg_least_ne :
    let a : Amount := ⟨.milliseconds, Int64.minValue⟩
    let d : Span := ⟨Int64.minValue⟩
    answers Step.exact 0 [.set a, .neg] = [.ok (minMs, none), .error .arithmeticOverflow] ∧
      (answers Step.apply zero [.set a, .neg]).map (Except.map (Prod.map toInt id)) =
        [.ok (minMs, none), .ok (maxMs, none)] ∧
      d.add d.neg ≠ .ok zero ∧ d.neg.neg ≠ d ∧ compare d.neg (neg ⟨Int64.minValue + 1⟩) = .eq := by
  decide +kernel

end Span

end TextCodec.Calendar
