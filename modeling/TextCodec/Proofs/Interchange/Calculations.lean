import TextCodec.Interchange.Values
import TextCodec.Proofs.Iso8601.Narrowing

/-!
# Calculations with calendar values

A `Calculation` is any way to get to a calendar value: a constant, a default, a text or a document
of any format, a checked tuple of fields, a count, or an operation on values that other calculations
got to.

`Calculation.eval` does what the calculation says, and `Calculation.eval?` does it with guards on
every cast and every index. By induction on the calculation, the guards always hold and every value
is valid (`Calculation.computes_eval`). Each operation needs the values it works on to be valid,
and gives that of its own, so the operations can come in any order.
-/

namespace TextCodec.Interchange

open Calendar Iso8601

/-! ## Kinds of values -/

/-- The kinds of values without an offset. -/
inductive Plain where
  | date
  | time
  | dateTime
deriving DecidableEq, Repr

/-- The kinds of calendar values. -/
inductive Kind where
  | plain (p : Plain)
  | zoned (p : Plain)
deriving DecidableEq, Repr

def Plain.Carrier : Plain → Type
  | date => Date
  | time => Time
  | dateTime => DateTime

/-- The values of a kind. -/
def Kind.Carrier : Kind → Type
  | plain p => p.Carrier
  | zoned p => Zoned p.Carrier

instance : (p : Plain) → Inhabited p.Carrier
  | .date => inferInstanceAs (Inhabited Date)
  | .time => inferInstanceAs (Inhabited Time)
  | .dateTime => inferInstanceAs (Inhabited DateTime)

instance : (k : Kind) → Inhabited k.Carrier
  | .plain p => inferInstanceAs (Inhabited p.Carrier)
  | .zoned p => inferInstanceAs (Inhabited (Zoned p.Carrier))

instance : (k : Kind) → Textual k.Carrier
  | .plain .date => inferInstanceAs (Textual Date)
  | .plain .time => inferInstanceAs (Textual Time)
  | .plain .dateTime => inferInstanceAs (Textual DateTime)
  | .zoned .date => inferInstanceAs (Textual ZonedDate)
  | .zoned .time => inferInstanceAs (Textual ZonedTime)
  | .zoned .dateTime => inferInstanceAs (Textual ZonedDateTime)

def Plain.Valid : (p : Plain) → p.Carrier → Prop
  | date => Date.Valid
  | time => Time.Valid
  | dateTime => DateTime.Valid

/-- The values of a kind that exist: their fields are in range, and so is their offset. -/
def Kind.Valid : (k : Kind) → k.Carrier → Prop
  | plain p => p.Valid
  | zoned p => Zoned.On p.Valid

/-- The values that have a name. -/
def Plain.constants : (p : Plain) → List p.Carrier
  | date => [Date.first, Date.epoch, Date.last]
  | time => [Time.midnight, Time.last]
  | dateTime => [DateTime.first, DateTime.epoch, DateTime.last]

/-- The reader of a kind, with guards. -/
def Kind.read? : (k : Kind) → Bytes → Guarded Calendar.Error k.Carrier
  | plain .date => readDate?
  | plain .time => readTime?
  | plain .dateTime => readDateTime?
  | zoned .date => readZonedDate?
  | zoned .time => readZonedTime?
  | zoned .dateTime => readZonedDateTime?

section Kinds

theorem Plain.valid_of_mem_constants {p : Plain} {v : p.Carrier} (h : v ∈ p.constants) :
    p.Valid v := by
  cases p with
  | date =>
    have hall : ∀ d ∈ [Date.first, Date.epoch, Date.last], d.Valid := by decide
    exact hall v h
  | time =>
    have hall : ∀ t ∈ [Time.midnight, Time.last], t.Valid := by decide
    exact hall v h
  | dateTime =>
    have hall : ∀ a ∈ [DateTime.first, DateTime.epoch, DateTime.last], a.Valid := by decide
    exact hall v h

theorem Plain.valid_default (p : Plain) : p.Valid default := by
  cases p with
  | date => exact show Date.first.Valid by decide
  | time => exact show Time.midnight.Valid by decide
  | dateTime => exact show DateTime.first.Valid by decide

theorem Kind.valid_default (k : Kind) : k.Valid default := by
  cases k with
  | plain p => exact p.valid_default
  | zoned p => exact ⟨p.valid_default, show Zoned.ValidOffset 0 by decide⟩

/-- A valid value passes the check of its kind. -/
theorem Kind.check_of_valid {k : Kind} {v : k.Carrier} (h : k.Valid v) :
    IsoText.check v = .ok v := by
  have hzoned : ∀ {α : Type} {check : α → Except Calendar.Error α} {z : Zoned α},
      check z.wall = .ok z.wall → Zoned.ValidOffset z.offset →
        (check z.wall >>= fun wall => Zoned.of wall z.offset) = .ok z := by
    intro α check z hwall hoffset
    rw [hwall]
    exact Zoned.of_eq_ok_iff.2 ⟨hoffset, rfl⟩
  rcases k with p | p
  · cases p with
    | date => exact Date.check_of_valid h
    | time => exact Time.check_of_valid h
    | dateTime => exact DateTime.check_eq_ok_iff.2 ⟨h, rfl⟩
  · cases p with
    | date => exact hzoned (Date.check_of_valid h.1) h.2
    | time => exact hzoned (Time.check_of_valid h.1) h.2
    | dateTime => exact hzoned (DateTime.check_eq_ok_iff.2 ⟨h.1, rfl⟩) h.2

theorem Kind.computes_read (k : Kind) (text : Bytes) :
    Computes (k.read? text) (IsoText.read text) k.Valid := by
  rcases k with p | p
  · cases p with
    | date => exact computes_readDate text
    | time => exact computes_readTime text
    | dateTime => exact computes_readDateTime text
  · cases p with
    | date => exact computes_readZonedDate text
    | time => exact computes_readZonedTime text
    | dateTime => exact computes_readZonedDateTime text

end Kinds

/-! ## Calculations -/

/-- A calculation that gets to a value of a kind. -/
inductive Calculation (F : Format) : Kind → Type where
  /-- The default value. -/
  | initial (k : Kind) : Calculation F k
  /-- A value that has a name. -/
  | constant {p : Plain} (value : p.Carrier) (listed : value ∈ p.constants) :
    Calculation F (.plain p)
  /-- The value of a text. A string is read by its bytes. -/
  | ofText (k : Kind) (text : Bytes) : Calculation F k
  /-- The value of a document. -/
  | ofDocument (k : Kind) (document : F.Document) : Calculation F k
  /-- The date with these fields. -/
  | date (year month day : Nat) : Calculation F (.plain .date)
  /-- The time with these fields. -/
  | time (hour minute second millisecond : Nat) : Calculation F (.plain .time)
  /-- The date with a day count. -/
  | ofDayCount (n : Int) : Calculation F (.plain .date)
  /-- The instant with a count of milliseconds. -/
  | ofMilliseconds (n : Int) : Calculation F (.plain .dateTime)
  /-- A date with a time of day. -/
  | dateTime (d : Calculation F (.plain .date)) (t : Calculation F (.plain .time)) :
    Calculation F (.plain .dateTime)
  /-- A local value with an offset. -/
  | zoned {p : Plain} (wall : Calculation F (.plain p)) (offset : Int) : Calculation F (.zoned p)
  /-- The local value. -/
  | wall {p : Plain} (z : Calculation F (.zoned p)) : Calculation F (.plain p)
  /-- The date of an instant. -/
  | dateOf (a : Calculation F (.plain .dateTime)) : Calculation F (.plain .date)
  /-- The time of day of an instant. -/
  | timeOf (a : Calculation F (.plain .dateTime)) : Calculation F (.plain .time)
  /-- A date moved by days. -/
  | addDays (d : Calculation F (.plain .date)) (n : Int) : Calculation F (.plain .date)
  /-- A time of day moved by a span, whether or not the midnights are counted. -/
  | addTime (t : Calculation F (.plain .time)) (s : Span) : Calculation F (.plain .time)
  /-- An instant moved forward. -/
  | add (a : Calculation F (.plain .dateTime)) (s : Span) : Calculation F (.plain .dateTime)
  /-- An instant moved back. -/
  | sub (a : Calculation F (.plain .dateTime)) (s : Span) : Calculation F (.plain .dateTime)
  /-- The start of a local date in UTC. -/
  | utcDate (z : Calculation F (.zoned .date)) : Calculation F (.plain .dateTime)
  /-- A local time of day in UTC. -/
  | utcTime (z : Calculation F (.zoned .time)) : Calculation F (.plain .time)
  /-- A local instant in UTC. -/
  | utcDateTime (z : Calculation F (.zoned .dateTime)) : Calculation F (.plain .dateTime)

section Documents

variable (F : Format)

/-- An error of the calendar as one of a format. -/
def Format.ofCalendar (e : Calendar.Error) : F.Error := F.refused (.calendar e)

/-- The value of a text, with guards. -/
def Format.readText? (k : Kind) (text : Bytes) : Guarded F.Error k.Carrier :=
  ((k.read? text).adapt .calendar).adapt F.refused

/-- The value of a document, with guards. -/
def Format.toValue? (k : Kind) (document : F.Document) : Guarded F.Error k.Carrier := do
  let s ← F.find (Textual.expectation k.Carrier) document
  F.readText? k (Bytes.ofString s)

theorem Format.computes_readText (k : Kind) (text : Bytes) :
    Computes (F.readText? k text) ((parse text).mapError F.refused) k.Valid :=
  .adapt (.adapt (k.computes_read text) _) _

theorem Format.computes_toValue (k : Kind) (document : F.Document) :
    Computes (F.toValue? k document) (F.toValue document) k.Valid :=
  .bind (.step _) fun s _ => F.computes_readText k (Bytes.ofString s)

end Documents

namespace Calculation

variable {F : Format}

/-- The value that a calculation gets to. -/
def eval : {k : Kind} → Calculation F k → Except F.Error k.Carrier
  | _, initial _ => .ok default
  | _, constant value _ => .ok value
  | _, ofText _ text => (parse text).mapError F.refused
  | _, ofDocument _ document => F.toValue document
  | _, date year month day => (Date.check ⟨year, month, day⟩).mapError F.ofCalendar
  | _, time hour minute second millisecond =>
    (Time.check ⟨hour, minute, second, millisecond⟩).mapError F.ofCalendar
  | _, ofDayCount n => (Date.ofDayCount n).mapError F.ofCalendar
  | _, ofMilliseconds n => (DateTime.ofMilliseconds n).mapError F.ofCalendar
  | _, dateTime d t => do
    let date ← d.eval
    let time ← t.eval
    return (⟨date, time⟩ : DateTime)
  | _, @zoned _ p w offset => do
    let v : p.Carrier ← w.eval
    (Zoned.of v offset).mapError F.ofCalendar
  | _, @wall _ p z => do return (← z.eval : Zoned p.Carrier).wall
  | _, dateOf a => do return (← a.eval : DateTime).date
  | _, timeOf a => do return (← a.eval : DateTime).time
  | _, addDays d n => do (Date.addDays (← d.eval) n).mapError F.ofCalendar
  | _, addTime t s => do return (Time.addWithDays (← t.eval) s).1
  | _, add a s => do (DateTime.add (← a.eval) s).mapError F.ofCalendar
  | _, sub a s => do (DateTime.sub (← a.eval) s).mapError F.ofCalendar
  | _, utcDate z => do (ZonedDate.utc (← z.eval)).mapError F.ofCalendar
  | _, utcTime z => do return ZonedTime.utc (← z.eval)
  | _, utcDateTime z => do (ZonedDateTime.utc (← z.eval)).mapError F.ofCalendar

/-- The value that a calculation gets to, with guards. -/
def eval? : {k : Kind} → Calculation F k → Guarded F.Error k.Carrier
  | _, initial _ => pure default
  | _, constant value _ => pure value
  | _, ofText k text => F.readText? k text
  | _, ofDocument k document => F.toValue? k document
  | _, date year month day => (Date.check? ⟨year, month, day⟩).adapt F.ofCalendar
  | _, time hour minute second millisecond =>
    (liftM (Time.check ⟨hour, minute, second, millisecond⟩) : Guarded Calendar.Error _).adapt
      F.ofCalendar
  | _, ofDayCount n => (Date.atDayCount? n).adapt F.ofCalendar
  | _, ofMilliseconds n => (DateTime.ofMilliseconds? n).adapt F.ofCalendar
  | _, dateTime d t => do
    let date ← d.eval?
    let time ← t.eval?
    return (⟨date, time⟩ : DateTime)
  | _, @zoned _ p w offset => do
    let v : p.Carrier ← w.eval?
    (liftM (Zoned.of v offset) : Guarded Calendar.Error _).adapt F.ofCalendar
  | _, @wall _ p z => do return (← z.eval? : Zoned p.Carrier).wall
  | _, dateOf a => do return (← a.eval? : DateTime).date
  | _, timeOf a => do return (← a.eval? : DateTime).time
  | _, addDays d n => do (Date.addDays? (← d.eval?) n).adapt F.ofCalendar
  | _, addTime t s => do return (← Time.addWithDays? (← t.eval?) s).1
  | _, add a s => do (DateTime.add? (← a.eval?) s).adapt F.ofCalendar
  | _, sub a s => do (DateTime.sub? (← a.eval?) s).adapt F.ofCalendar
  | _, utcDate z => do (ZonedDate.utc? (← z.eval?)).adapt F.ofCalendar
  | _, utcTime z => do ZonedTime.utc? (← z.eval?)
  | _, utcDateTime z => do (ZonedDateTime.utc? (← z.eval?)).adapt F.ofCalendar

/-- One case for each operation: from valid values it gets to valid values, and its guards hold. -/
theorem computes_eval {k : Kind} (c : Calculation F k) : Computes c.eval? c.eval k.Valid := by
  induction c with
  | initial k => exact .pure k.valid_default
  | constant value listed => exact .pure (Plain.valid_of_mem_constants listed)
  | ofText k text => exact F.computes_readText k text
  | ofDocument k document => exact F.computes_toValue k document
  | date => exact .adapt (Date.computes_check _) _
  | time => exact .adapt (Time.computes_check _) _
  | ofDayCount n => exact .adapt (Date.computes_atDayCount n) _
  | ofMilliseconds n => exact .adapt (DateTime.computes_ofMilliseconds n) _
  | dateTime d t hd ht => exact .bind hd fun _ hd => .bind ht fun _ ht => .pure ⟨hd, ht⟩
  | zoned w offset hw => exact .bind hw fun _ hw => .adapt (Zoned.computes_of hw offset) _
  | wall z hz => exact .bind hz fun _ hz => .pure hz.1
  | dateOf a ha => exact .bind ha fun _ ha => .pure ha.1
  | timeOf a ha => exact .bind ha fun _ ha => .pure ha.2
  | addDays d n hd => exact .bind hd fun _ hd => .adapt (Date.computes_addDays hd n) _
  | addTime t s ht =>
    exact .bind ht fun _ ht => .bind_some (Time.addWithDays?_eq _ s) (.pure (Time.valid_add ht s))
  | add a s ha => exact .bind ha fun _ ha => .adapt (DateTime.computes_add ha s) _
  | sub a s ha => exact .bind ha fun _ ha => .adapt (DateTime.computes_sub ha s) _
  | utcDate z hz => exact .bind hz fun _ hz => .adapt (ZonedDate.computes_utc hz.1) _
  | utcTime z hz =>
    exact .bind hz fun z hz => .lift_some (ZonedTime.utc?_eq z) (Time.valid_add hz.1 _)
  | utcDateTime z hz => exact .bind hz fun _ hz => .adapt (ZonedDateTime.computes_utc hz.1) _

/-- **Calendar values are valid.** Whatever a calculation does, each value that it gets to is valid
and passes the check of its kind, and no cast and no index on the way loses anything. Nor does one
in the position of a date in its year or in the calendar. -/
theorem valid_and_lossless (F : Format) :
    (∀ (k : Kind) (c : Calculation F k), c.eval?.run = some c.eval ∧
      ∀ v, c.eval = .ok v → k.Valid v ∧ IsoText.check v = .ok v) ∧
    ∀ (c : Calculation F (.plain .date)) (d : Date), c.eval = .ok d →
      d.dayOfYear? = some d.dayOfYear ∧ d.dayCount? = some d.dayCount := by
  refine ⟨fun k c => ?_, fun c d hd => ?_⟩
  · have hc := c.computes_eval
    refine ⟨hc.run_eq, fun v hv => ?_⟩
    have hvalid := hc.found v hv
    exact ⟨hvalid, Kind.check_of_valid hvalid⟩
  · have hvalid : d.Valid := c.computes_eval.found d hd
    exact ⟨Date.dayOfYear?_eq hvalid, Date.dayCount?_eq hvalid⟩

/-- From a leap day to the end of its year. -/
theorem valid_and_lossless_leap_year :
    let F := Datum.format
    let c : Calculation F (.plain .date) := .addDays (.wall (.zoned (.date 2016 2 29) 90)) 306
    let d : Date := ⟨2016, 12, 31⟩
    c.eval = .ok d ∧ c.eval?.run = some c.eval ∧ (d.Valid ∧ d.check = .ok d) ∧
      d.dayOfYear? = some 366 ∧ d.dayCount? = some 736329 := by
  intro F c d
  have heval : c.eval = .ok d := rfl
  have hday : d.dayOfYear = 366 := by decide
  have hcount : d.dayCount = 736329 := by decide
  obtain ⟨hall, hdates⟩ := valid_and_lossless F
  obtain ⟨hrun, hvalid⟩ := hall _ c
  have hposition := hdates c d heval
  rw [hday, hcount] at hposition
  exact ⟨heval, hrun, hvalid d heval, hposition⟩

end Calculation

end TextCodec.Interchange
