import TextCodec.Calendar.Zoned
/-!
# Sequences of operations

A span or an instant is moved by a list of steps. Each step is answered on its own, and one that
fails leaves the value where it was.
-/

namespace TextCodec.Calendar

/-- Answers each step in turn, starting from `state`. A step that fails changes nothing. -/
def answers {σ ρ step : Type} (apply : step → σ → Except Error (σ × ρ)) (state : σ) :
    List step → List (Except Error (σ × ρ))
  | [] => []
  | s :: steps =>
    match apply s state with
    | .ok (next, reply) => .ok (next, reply) :: answers apply next steps
    | .error e => .error e :: answers apply state steps

namespace Span

/-- A step on a span. -/
inductive Step where
  | set (amount : Amount)
  | add (amount : Amount)
  | neg
  | compare (amount : Amount)
deriving DecidableEq, Repr

/-- The span after a step, and the outcome of a comparison. -/
def Step.apply : Step → Span → Except Error (Span × Option Ordering)
  | set a, _ => do return (← a.toSpan, none)
  | add a, s => do return (← s.add (← a.toSpan), none)
  | neg, s => .ok (s.neg, none)
  | compare a, s => do return (s, some (Ord.compare s (← a.toSpan)))

end Span

namespace DateTime

/-- A step on an instant. -/
inductive Step where
  | add (amount : Span.Amount)
  | sub (amount : Span.Amount)
  /-- Moves the date and keeps the time. -/
  | addDays (days : Int)
  /-- Moves the time and keeps the date. -/
  | addTime (amount : Span.Amount)
  /-- Takes the instant as local and goes to UTC. -/
  | toUtc (offset : Int)
  /-- Takes the date as local and goes to its start in UTC. -/
  | dateToUtc (offset : Int)
  /-- Measures the span since another instant. -/
  | since (other : DateTime)
  | set (other : DateTime)
deriving DecidableEq, Repr

/-- The instant after a step. The number is that of midnights passed by `addTime`, and of
milliseconds measured by `since`. -/
def Step.apply : Step → DateTime → Except Error (DateTime × Option Int)
  | add a, t => do return (← t.add (← a.toSpan), none)
  | sub a, t => do return (← t.sub (← a.toSpan), none)
  | addDays n, t => do return (⟨← t.date.addDays n, t.time⟩, none)
  | addTime a, t => do
    let (time, days) := t.time.addWithDays (← a.toSpan)
    return (⟨t.date, time⟩, some days)
  | toUtc offset, t => do return (← ZonedDateTime.utc (← Zoned.of t offset), none)
  | dateToUtc offset, t => do return (← ZonedDate.utc (← Zoned.of t.date offset), none)
  | since other, t => do return (t, some (t.since (← other.check)).toInt)
  | set other, _ => do return (← other.check, none)

end DateTime

end TextCodec.Calendar
