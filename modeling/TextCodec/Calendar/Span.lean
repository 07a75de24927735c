import TextCodec.Calendar.Error
/-!
# Spans of time

A `Span` is a signed number of milliseconds in 64 bits. Results that do not fit are refused, except
by `Span.neg`, which clamps them.
-/

namespace TextCodec.Calendar

def msPerSecond : Nat := 1000

def msPerMinute : Nat := 60 * msPerSecond

def msPerDay : Nat := 24 * 60 * msPerMinute

/-- A signed span of time. -/
structure Span where
  milliseconds : Int64
deriving DecidableEq, Repr

namespace Span

/-- The number of milliseconds of a span, as an integer. -/
def toInt (s : Span) : Int := s.milliseconds.toInt

theorem toInt_inj {s t : Span} : s.toInt = t.toInt ↔ s = t := by
  constructor
  · intro h
    cases s
    cases t
    congr 1
    exact Int64.toInt_inj.1 h
  · rintro rfl
    rfl

def zero : Span := ⟨0⟩

instance : Inhabited Span := ⟨zero⟩

instance : Ord Span where
  compare a b := compare a.toInt b.toInt

def minMs : Int := -9223372036854775808

def maxMs : Int := 9223372036854775807

theorem minMs_le_toInt (s : Span) : minMs ≤ s.toInt := Int64.minValue_le_toInt _

theorem toInt_le_maxMs (s : Span) : s.toInt ≤ maxMs := Int64.toInt_le _

theorem toInt_mk {n : Int} (h1 : minMs ≤ n) (h2 : n ≤ maxMs) : toInt ⟨Int64.ofInt n⟩ = n := by
  apply Int64.toInt_ofInt_of_le
  · exact h1
  · simp only [maxMs] at h2
    omega

/-- The nearest number of milliseconds that a span can have. -/
def clamp (n : Int) : Int := max minMs (min n maxMs)

/-- The span of `n` milliseconds, if it fits. -/
def ofInt (n : Int) : Except Error Span :=
  if minMs ≤ n ∧ n ≤ maxMs then .ok ⟨Int64.ofInt n⟩ else .error .arithmeticOverflow

theorem ofInt_eq_ok_iff {n : Int} {s : Span} : ofInt n = .ok s ↔ s.toInt = n := by
  unfold ofInt
  split
  · next h =>
    rw [Except.ok.injEq, ← toInt_inj, toInt_mk h.1 h.2]
    exact eq_comm
  · next h =>
    simp only [reduceCtorEq, false_iff]
    rintro rfl
    exact h ⟨s.minMs_le_toInt, s.toInt_le_maxMs⟩

def isZero (s : Span) : Bool := s.milliseconds = 0

theorem isZero_iff {s : Span} : s.isZero = true ↔ s.toInt = 0 := by
  simp [isZero, toInt, ← Int64.toInt_inj]

/-- The whole seconds of a span, rounded toward zero. -/
def seconds (s : Span) : Int := s.toInt.tdiv msPerSecond

def add (s t : Span) : Except Error Span := ofInt (s.toInt + t.toInt)

/-- The opposite span. The least span has none, and gives the greatest. -/
def neg (s : Span) : Span := ⟨Int64.ofInt (clamp (-s.toInt))⟩

theorem toInt_neg (s : Span) : s.neg.toInt = min (-s.toInt) maxMs := by
  have h1 := s.minMs_le_toInt
  have h2 := s.toInt_le_maxMs
  unfold neg
  rw [toInt_mk] <;> simp only [clamp, minMs, maxMs] at * <;> omega

/-! ## Amounts -/

/-- A unit in which spans are given. -/
inductive TimeUnit where
  | days
  | minutes
  | seconds
  | milliseconds
deriving DecidableEq, Repr

def TimeUnit.ms : TimeUnit → Nat
  | days => msPerDay
  | minutes => msPerMinute
  | seconds => msPerSecond
  | milliseconds => 1

/-- A number of units. -/
structure Amount where
  unit : TimeUnit
  count : Int64
deriving DecidableEq, Repr

/-- The span that an amount denotes. -/
def Amount.toSpan (a : Amount) : Except Error Span := ofInt (a.count.toInt * a.unit.ms)

end Span

end TextCodec.Calendar
