import TextCodec.Proofs.Iso8601.ClockTexts
import TextCodec.Proofs.Iso8601.InstantTexts

/-!
# Families of texts

The six types come in three families: dates, times and instants, each with an offset and without
one. A type without an offset is read as the other type of its family, errors included, and then the
offset is dropped, or the value is taken to UTC.

Two bytes tell the family of a text (`Family.ofBytes`): the third one is a colon only in a time, and
the eleventh one is `T` only in an instant. So no text belongs to two families.
-/

namespace TextCodec.Iso8601

open Calendar Decimal

/-! ## Types without an offset -/

section Readers

variable (text : Bytes)

/-- An offset that is read is less than a day. -/
theorem trailingOffset_bind_of {α : Type} (wall : α) :
    (trailingOffset text >>= Zoned.of wall) = Zoned.mk wall <$> trailingOffset text := by
  cases h : trailingOffset text with
  | error e => rfl
  | ok offset => exact if_pos (trailingOffset_eq_ok_iff.1 h).validOffset

theorem readDate_eq : readDate text = Zoned.wall <$> readZonedDate text := by
  unfold readDate readZonedDate
  simp only [trailingOffset_bind_of, map_bind, Functor.map_map, bind_pure_comp]

theorem readTime_eq : readTime text = ZonedTime.utc <$> readZonedTime text := by
  unfold readTime readZonedTime
  simp only [map_bind, bind_pure_comp]

end Readers

/-! ## Families -/

/-- What a text is about. -/
inductive Family where
  | date
  | time
  | instant
deriving DecidableEq, Repr

namespace Family

/-- The text is that of a value of one of the two types of the family. -/
def Accepts : Family → Bytes → Prop
  | date, text => (∃ d : Date, parse text = .ok d) ∨ ∃ z : ZonedDate, parse text = .ok z
  | time, text => (∃ t : Time, parse text = .ok t) ∨ ∃ z : ZonedTime, parse text = .ok z
  | instant, text =>
    (∃ a : DateTime, parse text = .ok a) ∨ ∃ z : ZonedDateTime, parse text = .ok z

/-- The family that the third and the eleventh byte of a text tell. -/
def ofBytes (text : Bytes) : Family :=
  if text[2]? = some ':'.toUInt8 then time
  else if text[10]? = some 'T'.toUInt8 then instant
  else date

section Bytes

variable {text rest zone : Bytes} {offset : Int} {count : Nat}

theorem ofBytes_clock (h : IsClock text count offset) : ofBytes text = time := by
  refine if_pos ?_
  cases h <;> rfl

/-- The third byte of a date is a digit. -/
theorem third_ne_colon (d : Date) (rest : Bytes) :
    (dateText d ++ rest)[2]? ≠ some ':'.toUInt8 := by
  intro h
  have hthird : (dateText d ++ rest)[2]? = some (lastDigit (d.year / 10)) := rfl
  have hdigit := isDigit_lastDigit (d.year / 10)
  rw [hthird, Option.some.injEq] at h
  rw [h] at hdigit
  exact absurd hdigit (by decide)

theorem eleventh_eq (d : Date) (rest : Bytes) : (dateText d ++ rest)[10]? = rest[0]? := by
  rw [List.getElem?_append_right] <;> rw [length_dateText]
  · rfl
  · exact Nat.le_refl 10

theorem ofBytes_date (d : Date) (h : IsZone zone offset) : ofBytes (dateText d ++ zone) = date := by
  have hhead : ∀ b (rest : Bytes), b ≠ 'T'.toUInt8 → (b :: rest)[0]? ≠ some 'T'.toUInt8 :=
    fun b rest hne h => hne (Option.some.inj h)
  have hzone : zone[0]? ≠ some 'T'.toUInt8 := by
    cases h with
    | absent => nofun
    | _ => exact hhead _ _ (by decide)
  unfold ofBytes
  rw [if_neg (third_ne_colon d zone), eleventh_eq, if_neg hzone]

theorem ofBytes_instant (d : Date) (clock : Bytes) :
    ofBytes (dateText d ++ 'T'.toUInt8 :: clock) = instant := by
  unfold ofBytes
  rw [if_neg (third_ne_colon d _), eleventh_eq]
  rfl

end Bytes

/-- A text is only read as what its bytes tell. -/
theorem eq_ofBytes_of_accepts {f : Family} {text : Bytes} (h : f.Accepts text) :
    f = ofBytes text := by
  cases f with
  | date =>
    rcases h with ⟨d, h⟩ | ⟨z, h⟩
    · obtain ⟨-, zone, offset, hzone, rfl⟩ := readDate_eq_ok_iff.1 (mapError_eq_ok_iff.1 h)
      exact (ofBytes_date d hzone).symm
    · obtain ⟨-, zone, hzone, rfl⟩ := readZonedDate_eq_ok_iff.1 (mapError_eq_ok_iff.1 h)
      exact (ofBytes_date z.wall hzone).symm
  | time =>
    rcases h with ⟨t, h⟩ | ⟨z, h⟩
    · obtain ⟨count, offset, hclock, -⟩ := readTime_eq_ok_iff.1 (mapError_eq_ok_iff.1 h)
      exact (ofBytes_clock hclock).symm
    · obtain ⟨count, hclock, -⟩ := readZonedTime_eq_ok_iff.1 (mapError_eq_ok_iff.1 h)
      exact (ofBytes_clock hclock).symm
  | instant =>
    rcases h with ⟨a, h⟩ | ⟨z, h⟩
    · obtain ⟨-, count, offset, ⟨date, clock, ms, -, -, rfl, -⟩, -⟩ :=
        readDateTime_eq_ok_iff.1 (mapError_eq_ok_iff.1 h)
      exact (ofBytes_instant date clock).symm
    · obtain ⟨-, date, clock, ms, -, -, rfl, -⟩ :=
        readZonedDateTime_eq_ok_iff.1 (mapError_eq_ok_iff.1 h)
      exact (ofBytes_instant date clock).symm

end Family

/-- **Families of texts.** A date is read as a local date whose offset is dropped, a time as a local
time that is taken to UTC, and an instant as a local instant that is taken to UTC, which fails if it
leaves the calendar. The same texts are refused, for the same reasons. No text belongs to two
families. -/
theorem parse_families (text : Bytes) :
    (parse text : Except Failure Date) = Zoned.wall <$> parse text ∧
      (parse text : Except Failure Time) = ZonedTime.utc <$> parse text ∧
      (parse text : Except Failure DateTime) =
        (do
          let z : ZonedDateTime ← parse text
          z.utc.mapError fun _ => .calendar .instantOutOfRange) ∧
      ∀ f g : Family, f.Accepts text → g.Accepts text → f = g := by
  refine ⟨?_, ?_, ?_, fun f g hf hg => ?_⟩
  · show (readDate text).mapError _ = _ <$> (readZonedDate text).mapError _
    rw [readDate_eq, mapError_map]
  · show (readTime text).mapError _ = _ <$> (readZonedTime text).mapError _
    rw [readTime_eq, mapError_map]
  · show (readZonedDateTime text >>= fun z => _).mapError _ =
      (readZonedDateTime text).mapError _ >>= _
    cases readZonedDateTime text with
    | error e => rfl
    | ok z =>
      show (z.utc.mapError _).mapError _ = z.utc.mapError _
      cases z.utc <;> rfl
  · exact (Family.eq_ofBytes_of_accepts hf).trans (Family.eq_ofBytes_of_accepts hg).symm

/-- A local instant that is ahead of the first one in UTC. -/
example :
    let text := dateText .first ++ 'T'.toUInt8 :: clockText 0 0 0 ++ offsetText {} 1
    parse text = .ok (⟨.first, 1⟩ : ZonedDateTime) ∧
      (parse text : Except Failure DateTime) = .error (.calendar .instantOutOfRange) := by
  decide +kernel

end TextCodec.Iso8601
