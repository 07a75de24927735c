import Mathlib.Tactic.Common
import TextCodec.Proofs.Iso8601.Families
import TextCodec.Proofs.Iso8601.RoundTrip

/-!
# Texts and their parts

The text of an instant is made of the texts of its date and its time, and an offset is written the
same way behind each kind of value. So a part of a text is a text, and it is read as the part of the
value.

What follows a date or a time may be any zone. Canonical texts have two: the one of their offset,
and none, which is that of UTC. A type without an offset reads a zone as well. A date drops it
(`readDate_append`), and a time goes to UTC (`readTime_append`).
-/

namespace TextCodec.Iso8601

open Calendar

/-! ## Values without an offset -/

section Readers

variable {d : Date} {t : Time} {zone : Bytes} {offset : Int}

/-- A date drops the zone. -/
theorem readDate_append (hd : d.Valid) (hzone : IsZone zone offset) :
    readDate (dateText d ++ zone) = .ok d := by
  rw [readDate_eq, readZonedDate_append hd hzone]
  rfl

/-- A time goes to UTC. -/
theorem readTime_append (ht : t.Valid) (hzone : IsZone zone offset) :
    readTime (timeText t ++ zone) = .ok (ZonedTime.utc ⟨t, offset⟩) := by
  rw [readTime_eq, readZonedTime_append ht hzone]
  rfl

end Readers

/-! ## Parts -/

section Parts

variable (d : Date) (t : Time) (offset : Int) (style : Style)

theorem text_zonedDateTime :
    IsoText.text style (⟨⟨d, t⟩, offset⟩ : ZonedDateTime) =
      IsoText.text style d ++ 'T'.toUInt8 :: IsoText.text style (⟨t, offset⟩ : ZonedTime) :=
  List.append_assoc _ _ _

theorem take_text_zonedDateTime :
    (IsoText.text style (⟨⟨d, t⟩, offset⟩ : ZonedDateTime)).take 10 = dateText d := by
  rw [text_zonedDateTime]
  exact List.take_left' (length_dateText d)

theorem drop_text_zonedDateTime :
    (IsoText.text style (⟨⟨d, t⟩, offset⟩ : ZonedDateTime)).drop 11 =
      IsoText.text style (⟨t, offset⟩ : ZonedTime) := by
  have hlen : (IsoText.text style d ++ ['T'.toUInt8]).length = 11 := by
    rw [List.length_append]
    exact congrArg (· + 1) (length_dateText d)
  rw [text_zonedDateTime, List.append_cons]
  exact List.drop_left' hlen

end Parts

/-- What the texts of values made of a date, a time and an offset have in common, and what they and
their parts are read as. -/
structure Composes (style : Style) (d : Date) (t : Time) (offset : Int) : Prop where
  instant : IsoText.text style (⟨⟨d, t⟩, offset⟩ : ZonedDateTime) =
    IsoText.text style d ++ 'T'.toUInt8 :: IsoText.text style (⟨t, offset⟩ : ZonedTime)
  zone : ∃ zone, IsoText.text style (⟨t, offset⟩ : ZonedTime) = IsoText.text style t ++ zone ∧
    IsoText.text style (⟨d, offset⟩ : ZonedDate) = IsoText.text style d ++ zone
  date_of_instant :
    parse ((IsoText.text style (⟨⟨d, t⟩, offset⟩ : ZonedDateTime)).take 10) = .ok d
  time_of_instant :
    parse ((IsoText.text style (⟨⟨d, t⟩, offset⟩ : ZonedDateTime)).drop 11) =
      .ok (⟨t, offset⟩ : ZonedTime)
  /-- What has no zone is in UTC. -/
  instant_in_utc : parse (IsoText.text style (⟨d, t⟩ : DateTime)) =
    .ok (⟨⟨d, t⟩, 0⟩ : ZonedDateTime)
  time_in_utc : parse (IsoText.text style t) = .ok (⟨t, 0⟩ : ZonedTime)
  date_in_utc : parse (IsoText.text style d) = .ok (⟨d, 0⟩ : ZonedDate)
  /-- A date drops the zone. -/
  local_date : parse (IsoText.text style (⟨d, offset⟩ : ZonedDate)) = .ok d
  /-- A time goes to UTC. -/
  utc_time : parse (IsoText.text style (⟨t, offset⟩ : ZonedTime)) =
    .ok (ZonedTime.utc ⟨t, offset⟩)

/-- **Texts are made of texts.** The text of a local instant is the text of its date, a `T`, and the
text of its time with the offset, and an offset looks the same behind a date. Each of the parts is
read as the part of the value, and with another zone or none as the value that this zone makes of
it. -/
theorem composes {d : Date} {t : Time} {offset : Int} (hd : d.Valid) (ht : t.Valid)
    (hoffset : Zoned.ValidOffset offset) (style : Style) : Composes style d t offset where
  instant := text_zonedDateTime d t offset style
  zone := ⟨offsetText style offset, rfl, rfl⟩
  date_of_instant := by
    rw [take_text_zonedDateTime]
    exact mapError_eq_ok_iff.2 (readDate_dateText hd)
  time_of_instant := by
    rw [drop_text_zonedDateTime]
    exact mapError_eq_ok_iff.2 (readZonedTime_text style ht hoffset)
  instant_in_utc := by
    have hread := readZonedDateTime_append (a := ⟨d, t⟩) ⟨hd, ht⟩ .absent
    rw [List.append_nil] at hread
    exact mapError_eq_ok_iff.2 hread
  time_in_utc := by
    have hread := readZonedTime_append ht .absent
    rw [List.append_nil] at hread
    exact mapError_eq_ok_iff.2 hread
  date_in_utc := by
    have hread := readZonedDate_append hd .absent
    rw [List.append_nil] at hread
    exact mapError_eq_ok_iff.2 hread
  local_date := mapError_eq_ok_iff.2 (readDate_append hd (isZone_offsetText style hoffset))
  utc_time := mapError_eq_ok_iff.2 (readTime_append ht (isZone_offsetText style hoffset))

/-- West of UTC, where a time of the evening is one of the next morning. -/
theorem composes_leap_day :
    let d : Date := ⟨2024, 2, 29⟩
    let t : Time := ⟨23, 59, 58, 7⟩
    let text := IsoText.text {} (⟨t, -90⟩ : ZonedTime)
    (d.Valid ∧ t.Valid ∧ Zoned.ValidOffset (-90) ∧ Composes {} d t (-90)) ∧
      text = Bytes.ofString "23:59:58.007-01:30" ∧
      parse text = .ok (⟨t, -90⟩ : ZonedTime) ∧ parse text = .ok (⟨1, 29, 58, 7⟩ : Time) := by
  intro d t text
  have hd : d.Valid := by decide
  have ht : t.Valid := by decide
  have hoffset : Zoned.ValidOffset (-90) := by decide
  have h := composes hd ht hoffset {}
  have hlocal := h.time_of_instant
  rw [drop_text_zonedDateTime] at hlocal
  have hutc : ZonedTime.utc ⟨t, -90⟩ = ⟨1, 29, 58, 7⟩ := by decide +kernel
  have hnext := h.utc_time
  rw [hutc] at hnext
  exact ⟨⟨hd, ht, hoffset, h⟩, by decide +kernel, hlocal, hnext⟩

end TextCodec.Iso8601
