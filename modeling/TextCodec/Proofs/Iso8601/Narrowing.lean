import TextCodec.Proofs.Calendar.Narrowing
import TextCodec.Proofs.Iso8601.InstantTexts

/-!
# Casts of readers

Numbers are read as words of 64 bits and then cut to the size of their field, before anyone asks
whether the field denotes a value. A field has a fixed number of digits, and so what it can hold is
small enough. Of a zone the minutes are cut before they get their sign.

The readers are repeated with guards on these casts and on those of the calendar. Each of them finds
what the reader without guards does, and nothing but valid values.
-/

namespace TextCodec.Iso8601

open Calendar Decimal

/-! ## Fields -/

def DateFields.fit (f : DateFields) : Option DateFields := do
  return ⟨← fit? 16 f.year, ← fit? 8 f.month, ← fit? 8 f.day⟩

def TimeFields.fit (f : TimeFields) : Option TimeFields := do
  return { f with
    hour := ← fit? 8 f.hour
    minute := ← fit? 8 f.minute
    second := ← fit? 8 f.second }

/-- The fields of a date, each in a word of its size. -/
def expectDate? (text : Bytes) : Guarded Error (DateFields × Bytes) := do
  let (fields, rest) ← expect .malformedText (dateFields text)
  return (← fields.fit, rest)

/-- The fields of a time, each in a word of its size. -/
def expectTime? (text : Bytes) : Guarded Error (TimeFields × Bytes) := do
  let (fields, rest) ← expect .malformedText (timeFields text)
  return (← fields.fit, rest)

def trailingOffset? (text : Bytes) : Guarded Error Int := do
  match text with
  | [] => return 0
  | _ :: _ =>
    match zone text with
    | none => throw .malformedZone
    | some (offset, rest) =>
      let _ ← fitSigned? 16 offset.natAbs
      match rest with
      | [] => return offset
      | _ :: _ => throw .malformedText

section Fields

variable {text rest : Bytes}

theorem timeFields_lt {f : TimeFields} (h : timeFields text = some (f, rest)) :
    f.hour < 100 ∧ f.minute < 100 ∧ f.second < 100 := by
  obtain ⟨hour, minute, second, ms, -, hh, hm, hs, -, -, rfl, -⟩ := exists_of_timeFields h
  unfold clockFields
  split_ifs
  · exact ⟨hh, hm, show 59 < 100 by decide⟩
  · exact ⟨hh, hm, hs⟩

theorem computes_expectDate (text : Bytes) :
    Computes (expectDate? text) (expect .malformedText (dateFields text)) fun _ => True := by
  rw [← bind_pure (expect .malformedText (dateFields text))]
  refine .bind (.lift fun _ => expect_eq_ok_iff.1) fun (f, rest) h => ?_
  obtain ⟨hy, hm, hd, -⟩ := dateFields_eq_some_iff.1 h
  refine .bind_some (a := f) ?_ (.pure trivial)
  unfold DateFields.fit
  rw [fit?_bind (by omega), fit?_bind (by omega), fit?_bind (by omega)]
  rfl

theorem computes_expectTime (text : Bytes) :
    Computes (expectTime? text) (expect .malformedText (timeFields text)) fun _ => True := by
  rw [← bind_pure (expect .malformedText (timeFields text))]
  refine .bind (.lift fun _ => expect_eq_ok_iff.1) fun (f, rest) h => ?_
  obtain ⟨hh, hm, hs⟩ := timeFields_lt h
  refine .bind_some (a := f) ?_ (.pure trivial)
  unfold TimeFields.fit
  rw [fit?_bind (by omega), fit?_bind (by omega), fit?_bind (by omega)]
  rfl

theorem computes_trailingOffset (text : Bytes) :
    Computes (trailingOffset? text) (trailingOffset text) Zoned.ValidOffset := by
  unfold trailingOffset? trailingOffset
  cases text with
  | nil => exact .pure (by decide)
  | cons b text =>
    dsimp only
    cases hzone : zone (b :: text) with
    | none => exact .throw _
    | some p =>
      obtain ⟨offset, rest⟩ := p
      obtain ⟨_, hz, -⟩ := exists_isZone_of_zone hzone
      have hoffset := hz.validOffset
      have habs : (offset.natAbs : Int) < 2 ^ (16 - 1) := by
        unfold Zoned.ValidOffset maxOffset at hoffset
        omega
      refine .bind_some (if_pos ⟨by omega, habs⟩) ?_
      cases rest with
      | nil => exact .pure hoffset
      | cons => exact .throw _

end Fields

/-! ## Readers -/

def TimeFields.toTime? (f : TimeFields) : Guarded Error Time := do
  let time ← Time.check ⟨f.hourOfDay, f.minute, f.second, 0⟩
  time.add? ⟨Int64.ofNat (f.millisecond + f.leapDelay)⟩

def toInstant? (d : DateFields) (t : TimeFields) : Guarded Error DateTime := do
  let date ← Date.check? ⟨d.year, d.month, d.day⟩
  let time ← t.clock.check
  (DateTime.add? ⟨date, time⟩ ⟨Int64.ofNat t.delay⟩).adapt fun _ => .instantOutOfRange

def readZonedDate? (text : Bytes) : Guarded Error ZonedDate := do
  checkLength text minDateWidth
  let (fields, rest) ← expectDate? text
  let date ← Date.check? ⟨fields.year, fields.month, fields.day⟩
  let offset ← trailingOffset? rest
  Zoned.of date offset

def readDate? (text : Bytes) : Guarded Error Date := do
  checkLength text minDateWidth
  let (fields, rest) ← expectDate? text
  let date ← Date.check? ⟨fields.year, fields.month, fields.day⟩
  let _ ← trailingOffset? rest
  return date

def readLocalTime? (text : Bytes) : Guarded Error (Time × Int) := do
  checkLength text minTimeWidth
  let (fields, rest) ← expectTime? text
  let offset ← trailingOffset? rest
  fields.checkEndOfDay offset
  return (← fields.toTime?, offset)

def readZonedTime? (text : Bytes) : Guarded Error ZonedTime := do
  let (time, offset) ← readLocalTime? text
  Zoned.of time offset

def readTime? (text : Bytes) : Guarded Error Time := do
  let (time, offset) ← readLocalTime? text
  let zoned ← Zoned.of time offset
  ZonedTime.utc? zoned

def readZonedDateTime? (text : Bytes) : Guarded Error ZonedDateTime := do
  checkLength text minDateTimeWidth
  let (date, rest) ← expectDate? text
  let rest ← expect .malformedText (Decimal.literal 'T'.toUInt8 rest)
  let (time, rest) ← expectTime? rest
  let offset ← trailingOffset? rest
  time.checkEndOfDay offset
  Zoned.of (← toInstant? date time) offset

def readDateTime? (text : Bytes) : Guarded Error DateTime := do
  let zoned ← readZonedDateTime? text
  (ZonedDateTime.utc? zoned).adapt fun _ => .instantOutOfRange

section Readers

variable (text : Bytes)

theorem computes_toTime (f : TimeFields) : Computes f.toTime? f.toTime Time.Valid :=
  .bind (Time.computes_check _) fun _ ht => .lift_some (Time.add?_eq _ _) (Time.valid_add ht _)

theorem computes_toInstant (d : DateFields) (t : TimeFields) :
    Computes (toInstant? d t) (toInstant d t) DateTime.Valid :=
  .bind (Date.computes_check _) fun _ hdate => .bind (Time.computes_check _) fun _ htime =>
    .adapt (DateTime.computes_add ⟨hdate, htime⟩ _) _

theorem computes_readZonedDate :
    Computes (readZonedDate? text) (readZonedDate text) (Zoned.On Date.Valid) :=
  .bind (.step _) fun _ _ => .bind (computes_expectDate text) fun (_, rest) _ =>
    .bind (Date.computes_check _) fun _ hdate =>
      .bind (computes_trailingOffset rest) fun offset _ => Zoned.computes_of hdate offset

theorem computes_readDate : Computes (readDate? text) (readDate text) Date.Valid :=
  .bind (.step _) fun _ _ => .bind (computes_expectDate text) fun (_, rest) _ =>
    .bind (Date.computes_check _) fun _ hdate =>
      .bind (computes_trailingOffset rest) fun _ _ => .pure hdate

theorem computes_readLocalTime :
    Computes (readLocalTime? text) (readLocalTime text) fun p => p.1.Valid :=
  .bind (.step _) fun _ _ => .bind (computes_expectTime text) fun (f, rest) _ =>
    .bind (computes_trailingOffset rest) fun _ _ => .bind (.step _) fun _ _ =>
      .bind (computes_toTime f) fun _ ht => .pure ht

theorem computes_readZonedTime :
    Computes (readZonedTime? text) (readZonedTime text) (Zoned.On Time.Valid) :=
  .bind (computes_readLocalTime text) fun (_, offset) ht => Zoned.computes_of ht offset

theorem computes_readTime : Computes (readTime? text) (readTime text) Time.Valid :=
  .bind (computes_readLocalTime text) fun (_, offset) ht =>
    .bind (Zoned.computes_of ht offset) fun z hz =>
      .lift_some (ZonedTime.utc?_eq z) (Time.valid_add hz.1 _)

theorem computes_readZonedDateTime :
    Computes (readZonedDateTime? text) (readZonedDateTime text) (Zoned.On DateTime.Valid) :=
  .bind (.step _) fun _ _ => .bind (computes_expectDate text) fun (d, _) _ =>
    .bind (.step _) fun rest _ => .bind (computes_expectTime rest) fun (t, rest) _ =>
      .bind (computes_trailingOffset rest) fun offset _ => .bind (.step _) fun _ _ =>
        .bind (computes_toInstant d t) fun _ ha => Zoned.computes_of ha offset

theorem computes_readDateTime : Computes (readDateTime? text) (readDateTime text) DateTime.Valid :=
  .bind (computes_readZonedDateTime text) fun _ hz => .adapt (ZonedDateTime.computes_utc hz.1) _

end Readers

end TextCodec.Iso8601
