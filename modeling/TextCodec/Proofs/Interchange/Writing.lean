import Mathlib.Tactic.Common
import TextCodec.Proofs.Interchange.Calculations
import TextCodec.Proofs.Iso8601.RoundTrip
import TextCodec.Proofs.Iso8601.Writer

/-!
# One text for every way to write

A value is written in three ways: to a buffer that has room for it, to a buffer of any length, and
as a string. Only the first way writes fields. The other two take what it leaves in a local buffer,
and go on with an empty text where that buffer is too short, where its bytes are no string, or where
the string is too long for what holds it.

1. The fields of a valid value are its text (`Kind.writes_text`), and there are as many bytes as
   were announced (`Kind.length_text`).
2. So the first way fails only where there is no room, and leaves the text (`Kind.run_writeExact`).
3. The local buffer has room, its bytes are ASCII, and they are few, so that nothing is replaced by
   an empty text (`Kind.run_localText`, `Kind.run_toText`).
4. A text is cut where a buffer ends, and followed by a zero byte otherwise (`copyTerminated?_eq`).

What holds a string is not known here. It is assumed to hold each string up to its capacity
(`Holds`).
-/

namespace TextCodec.Interchange

open Calendar Iso8601

/-! ## Ways to write -/

/-- Writes a value that has no offset. -/
def Plain.write : (p : Plain) → p.Carrier → Writing
  | date => Writer.date
  | time => Writer.time
  | dateTime => Writer.dateTime

/-- Writes a value, and its offset behind it. -/
def Kind.write (style : Style) : (k : Kind) → k.Carrier → Writing
  | plain p, v => p.write v
  | zoned p, z => do
    p.write z.wall
    Writer.zone style z.offset

/-- The bytes that a value without an offset takes. -/
def Plain.width : Plain → Nat
  | date => 10
  | time => 12
  | dateTime => 23

/-- The bytes that a value takes. -/
def Kind.width (style : Style) : (k : Kind) → k.Carrier → Nat
  | plain p, _ => p.width
  | zoned p, z => p.width + if z.offset = 0 ∧ style.abbreviatesUtc then 1 else 6

/-- The first bytes of a buffer, if it has so many. -/
def front? (buffer : Bytes) (n : Nat) : Option Bytes :=
  if n ≤ buffer.length then some (buffer.take n) else none

/-- Two parts of a buffer, if the first one can be so long. -/
def split? (buffer : Bytes) (n : Nat) : Option (Bytes × Bytes) :=
  if n ≤ buffer.length then some (buffer.take n, buffer.drop n) else none

/-- Replaces all bytes, of which there must be as many as before. -/
def replace? (buffer bytes : Bytes) : Option Bytes :=
  if buffer.length = bytes.length then some bytes else none

/-- Copies a text, and puts a zero byte behind it if there is a place for one. -/
def copyTerminated? (buffer text : Bytes) : Option Written :=
  match split? buffer text.length with
  | some (content, _ :: rest) => do
    let content ← replace? content text
    return ⟨text.length, content ++ 0 :: rest⟩
  | _ => do
    let buffer ← replace? buffer ((front? text buffer.length).getD [])
    return ⟨text.length, buffer⟩

section Ways

variable (hold : String → Option String) (style : Style) (k : Kind) (v : k.Carrier)
  (buffer : Bytes)

/-- Writes a value to a buffer that has room for it, field by field. -/
def Kind.writeExact? : Guarded ShortBuffer Written := do
  let required := IsoText.width style v
  if buffer.length < required then throw ⟨buffer.length, required⟩
  let ((), w) ← (k.write style v).run ⟨buffer, 0⟩
  return ⟨w.place, w.buffer⟩

/-- The text that is left in a local buffer. -/
def Kind.localText? : Guarded ShortBuffer Bytes := do
  let w ← k.writeExact? style v (.replicate maxWidth 0)
  return (front? w.buffer w.length).getD []

/-- Writes a value to a buffer of any length. -/
def Kind.writeTerminated? : Guarded ShortBuffer Written := do
  let text ← k.localText? style v
  copyTerminated? buffer text

/-- The text of a value as a string that is held by something of limited capacity. -/
def Kind.toText? : Guarded ShortBuffer String := do
  let text ← k.localText? style v
  return (hold ((String.fromUTF8? text.toByteArray).getD "")).getD ""

end Ways

/-- Each string up to the capacity is held as it is. -/
def Holds (hold : String → Option String) : Prop :=
  ∀ s : String, s.utf8ByteSize ≤ maxWidth → hold s = some s

/-! ## Texts -/

section Texts

variable {p : Plain} {k : Kind} {v : k.Carrier} (style : Style)

theorem Plain.writes_text {v : (Kind.plain p).Carrier} (h : p.Valid v) :
    Writes (p.write v) (IsoText.text style v) := by
  cases p with
  | date => exact writes_date h
  | time => exact writes_time h
  | dateTime => exact writes_dateTime h

theorem Plain.length_text (v : (Kind.plain p).Carrier) :
    (IsoText.text style v).length = p.width := by
  cases p with
  | date => exact length_dateText v
  | time => exact length_timeText v
  | dateTime => exact length_dateTimeText v

theorem Plain.isAscii_text (v : (Kind.plain p).Carrier) : IsAscii (IsoText.text style v) := by
  cases p with
  | date => exact isAscii_dateText v
  | time => exact isAscii_timeText v
  | dateTime => exact isAscii_dateTimeText v

theorem Kind.text_zoned (z : (Kind.zoned p).Carrier) :
    IsoText.text style z =
      IsoText.text style (show (Kind.plain p).Carrier from Zoned.wall z) ++
        offsetText style (Zoned.offset z) := by
  cases p <;> rfl

theorem Kind.writes_text (h : k.Valid v) : Writes (k.write style v) (IsoText.text style v) := by
  cases k with
  | plain p => exact Plain.writes_text style h
  | zoned p =>
    rw [Kind.text_zoned]
    exact (Plain.writes_text style h.1).bind (writes_zone style h.2)

theorem Kind.length_text (v : k.Carrier) : (IsoText.text style v).length = k.width style v := by
  cases k with
  | plain p => exact Plain.length_text style v
  | zoned p =>
    rw [Kind.text_zoned, List.length_append, Plain.length_text, length_offsetText]
    rfl

theorem Kind.isAscii_text (v : k.Carrier) : IsAscii (IsoText.text style v) := by
  cases k with
  | plain p => exact Plain.isAscii_text style v
  | zoned p =>
    rw [Kind.text_zoned]
    exact (Plain.isAscii_text style _).append (isAscii_offsetText style _)

/-- What is announced is what is written. -/
theorem Kind.width_eq (v : k.Carrier) : IsoText.width style v = k.width style v := by
  rcases k with p | p <;> cases p <;> rfl

theorem Kind.width_le_maxWidth (v : k.Carrier) : k.width style v ≤ IsoText.maxWidth k.Carrier := by
  rcases k with p | p
  · cases p <;> exact Nat.le_refl _
  · have hzone : ∀ c : Prop, [Decidable c] → (if c then 1 else 6) ≤ 6 := by
      intro c _
      split <;> omega
    cases p <;> exact Nat.add_le_add_left (hzone _) _

/-- No text is too long for a local buffer. -/
theorem Kind.width_le (v : k.Carrier) : k.width style v ≤ maxWidth := by
  have hmax : IsoText.maxWidth k.Carrier ≤ maxWidth := by
    rcases k with p | p <;> cases p <;> decide
  exact (Kind.width_le_maxWidth style v).trans hmax

end Texts

/-! ## Copies -/

section Copies

variable (buffer text rest : Bytes)

theorem front?_append : front? (text ++ rest) text.length = some text := by
  unfold front?
  rw [List.take_left, if_pos]
  rw [List.length_append]
  omega

theorem split?_of_lt (h : text.length < buffer.length) :
    split? buffer text.length =
      some (buffer.take text.length, buffer[text.length] :: buffer.drop (text.length + 1)) := by
  unfold split?
  rw [if_pos (Nat.le_of_lt h), List.drop_eq_getElem_cons h]

theorem copyTerminated?_eq :
    copyTerminated? buffer text = some (if text.length < buffer.length then
      ⟨text.length, buffer.overwrite (text ++ [0])⟩ else ⟨text.length, buffer.overwrite text⟩) := by
  by_cases h : text.length < buffer.length
  · have hcontent : replace? (buffer.take text.length) text = some text :=
      if_pos (List.length_take_of_le (Nat.le_of_lt h))
    have hroom : (text ++ [0]).length ≤ buffer.length := by
      rw [List.length_append]
      exact h
    unfold copyTerminated?
    rw [split?_of_lt buffer text h]
    dsimp only
    rw [hcontent, if_pos h, Bytes.overwrite_of_length_le hroom, List.length_append,
      List.append_assoc]
    rfl
  · have hfront : front? text buffer.length = some (text.take buffer.length) := if_pos (by omega)
    have hall : replace? buffer (text.take buffer.length) = some (text.take buffer.length) := by
      apply if_pos
      rw [List.length_take]
      omega
    have hrest : buffer.drop text.length = [] := List.drop_eq_nil_of_le (by omega)
    unfold copyTerminated?
    split
    · next content b rest hsplit =>
      unfold split? at hsplit
      rw [hrest] at hsplit
      split_ifs at hsplit
      cases hsplit
    · rw [hfront, Option.getD_some, hall, if_neg h]
      unfold Bytes.overwrite
      rw [hrest, List.append_nil]
      rfl

theorem writeTerminated_eq {α : Type} [IsoText α] (style : Style) (value : α) :
    writeTerminated style value buffer = ⟨(IsoText.text style value).length,
      (IsoText.text style value).take buffer.length ++
        (if (IsoText.text style value).length < buffer.length then [0] else []) ++
        buffer.drop ((IsoText.text style value).length + 1)⟩ := by
  unfold writeTerminated
  dsimp only
  split
  · rw [Bytes.overwrite_of_length_le, List.take_of_length_le, List.length_append]
    · rfl
    · omega
    · rw [List.length_append]
      assumption
  · unfold Bytes.overwrite
    rw [List.drop_eq_nil_of_le (by omega), List.drop_eq_nil_of_le (by omega), List.append_nil,
      List.append_nil]

variable {text}

theorem toByteArray_toAscii (h : IsAscii text) : text.toAscii.toByteArray = text.toByteArray := by
  have hbytes := Bytes.ofString_toAscii h
  unfold Bytes.ofString at hbytes
  apply ByteArray.ext
  rw [List.data_toByteArray, ← hbytes, Array.toArray_toList, hbytes]
  rfl

/-- The bytes of an ASCII text are a string. -/
theorem fromUTF8?_toByteArray (h : IsAscii text) :
    String.fromUTF8? text.toByteArray = some text.toAscii := by
  unfold String.fromUTF8?
  rw [← toByteArray_toAscii h, dif_pos text.toAscii.isValidUTF8]
  rfl

theorem utf8ByteSize_toAscii (h : IsAscii text) : text.toAscii.utf8ByteSize = text.length := by
  rw [← String.size_toByteArray, toByteArray_toAscii h, List.size_toByteArray]

end Copies

/-! ## What is written -/

section Written

variable {hold : String → Option String} {k : Kind} {v : k.Carrier} (style : Style)

theorem Kind.writeExact_of_room {buffer : Bytes} (hroom : k.width style v ≤ buffer.length) :
    writeExact style v buffer = .ok ⟨k.width style v,
      IsoText.text style v ++ buffer.drop (k.width style v)⟩ := by
  have hlen := Kind.length_text style v
  unfold writeExact
  dsimp only
  rw [Kind.width_eq, if_neg (by omega), Bytes.overwrite_of_length_le (by omega), hlen]

theorem Kind.writeExact_of_short {buffer : Bytes} (hshort : buffer.length < k.width style v) :
    writeExact style v buffer = .error ⟨buffer.length, k.width style v⟩ := by
  unfold writeExact
  dsimp only
  rw [Kind.width_eq, if_pos hshort]

/-- Writing field by field is writing the text. -/
theorem Kind.run_writeExact (h : k.Valid v) (buffer : Bytes) :
    (k.writeExact? style v buffer).run = some (writeExact style v buffer) := by
  have hlen := Kind.length_text style v
  unfold writeExact?
  dsimp only
  rw [Kind.width_eq]
  by_cases hshort : buffer.length < k.width style v
  · rw [if_pos hshort, Kind.writeExact_of_short style hshort]
    rfl
  · have hroom : ([] : Bytes).length + (IsoText.text style v).length ≤ buffer.length := by
      rw [hlen, List.length_nil]
      omega
    have hrun := Kind.writes_text style h buffer [] hroom
    rw [Writer.having_nil, List.nil_append] at hrun
    rw [if_neg hshort, Kind.writeExact_of_room style (by omega), hrun, ← hlen]
    rfl

/-- The local buffer has room for each text. -/
theorem Kind.run_localText (h : k.Valid v) :
    (k.localText? style v).run = some (.ok (IsoText.text style v)) := by
  have hroom : k.width style v ≤ (List.replicate maxWidth (0 : UInt8)).length := by
    rw [List.length_replicate]
    exact Kind.width_le style v
  unfold localText?
  rw [ExceptT.run_bind, Kind.run_writeExact style h, Kind.writeExact_of_room style hroom,
    ← Kind.length_text style v]
  show some (Except.ok ((front? (_ ++ _) _).getD [])) = _
  rw [front?_append]
  rfl

theorem Kind.run_writeTerminated (h : k.Valid v) (buffer : Bytes) :
    (k.writeTerminated? style v buffer).run = some (.ok (writeTerminated style v buffer)) := by
  unfold writeTerminated? writeTerminated
  rw [ExceptT.run_bind, Kind.run_localText style h]
  show (liftM (copyTerminated? _ _) : Guarded ShortBuffer Written).run = _
  rw [copyTerminated?_eq]
  rfl

/-- A text is a string, and what holds it can take so much. -/
theorem Kind.run_toText (hhold : Holds hold) (h : k.Valid v) :
    (k.toText? hold style v).run = some (.ok (toText style v)) := by
  have hascii := Kind.isAscii_text style v
  have hsize : (toText style v).utf8ByteSize ≤ maxWidth := by
    unfold toText
    rw [utf8ByteSize_toAscii hascii, Kind.length_text]
    exact Kind.width_le style v
  unfold toText?
  rw [ExceptT.run_bind, Kind.run_localText style h]
  show some (Except.ok ((hold ((String.fromUTF8? _).getD "")).getD "")) = _
  rw [fromUTF8?_toByteArray hascii]
  show some (Except.ok ((hold (toText style v)).getD "")) = _
  rw [hhold _ hsize]
  rfl

end Written

/-- A value is written as this text in all ways, whether as it stands or field by field. -/
structure WrittenAs (hold : String → Option String) (style : Style) {k : Kind} (v : k.Carrier)
    (text : Bytes) : Prop where
  ascii : IsAscii text
  length : text.length = k.width style v
  length_le : text.length ≤ IsoText.maxWidth k.Carrier
  announced : IsoText.width style v = text.length
  /-- As a string, which is never replaced by an empty one. -/
  string : Bytes.ofString (toText style v) = text
  string_steps : (k.toText? hold style v).run = some (.ok (toText style v))
  /-- To a buffer that has room, at its front, and it is an error if there is none. -/
  exact : ∀ buffer, writeExact style v buffer =
    if buffer.length < text.length then .error ⟨buffer.length, text.length⟩
    else .ok ⟨text.length, text ++ buffer.drop text.length⟩
  exact_steps : ∀ buffer, (k.writeExact? style v buffer).run = some (writeExact style v buffer)
  /-- To any buffer, cut where it ends, and followed by one zero byte otherwise. -/
  terminated : ∀ buffer, writeTerminated style v buffer =
    ⟨text.length, text.take buffer.length ++ (if text.length < buffer.length then [0] else []) ++
      buffer.drop (text.length + 1)⟩
  terminated_steps : ∀ buffer,
    (k.writeTerminated? style v buffer).run = some (.ok (writeTerminated style v buffer))

/-- **One text for every way to write.** Each valid value of the six kinds has an ASCII text of its
width in each style. All ways to write the value agree on this text and on its length, and leave
the rest of a buffer as it was. The steps that lead there take none of their ways out. -/
theorem written_as_text {hold : String → Option String} (hhold : Holds hold) {k : Kind}
    {v : k.Carrier} (h : k.Valid v) (style : Style) :
    WrittenAs hold style v (IsoText.text style v) where
  ascii := Kind.isAscii_text style v
  length := Kind.length_text style v
  length_le := by
    rw [Kind.length_text]
    exact Kind.width_le_maxWidth style v
  announced := by rw [Kind.length_text, Kind.width_eq]
  string := Bytes.ofString_toAscii (Kind.isAscii_text style v)
  string_steps := Kind.run_toText style hhold h
  exact buffer := by
    rw [Kind.length_text]
    split
    · next hshort => exact Kind.writeExact_of_short style hshort
    · next hroom => exact Kind.writeExact_of_room style (Nat.le_of_not_lt hroom)
  exact_steps := Kind.run_writeExact style h
  terminated buffer := writeTerminated_eq buffer style v
  terminated_steps := Kind.run_writeTerminated style h

/-- Holds strings up to the capacity, and no others. -/
def holdUpTo (s : String) : Option String := if s.utf8ByteSize ≤ maxWidth then some s else none

theorem holds_holdUpTo : Holds holdUpTo := fun _ h => if_pos h

/-- West of UTC, with and without room, and the end of a year in UTC itself. -/
theorem written_as_text_leap_day :
    let west : ZonedDateTime := ⟨⟨⟨2024, 2, 29⟩, ⟨23, 59, 58, 7⟩⟩, -90⟩
    let utc : ZonedDate := ⟨⟨999, 12, 31⟩, 0⟩
    let dots : Nat → Bytes := fun n => .replicate n '.'.toUInt8
    (Holds holdUpTo ∧ Kind.Valid (.zoned .dateTime) west ∧ Kind.Valid (.zoned .date) utc) ∧
      (Kind.toText? holdUpTo {} (.zoned .dateTime) west).run = some (.ok (toText {} west)) ∧
      Bytes.ofString (toText {} west) = Bytes.ofString "2024-02-29T23:59:58.007-01:30" ∧
      writeExact {} west (dots 28) = .error ⟨28, 29⟩ ∧
      (Kind.writeTerminated? ⟨true⟩ (.zoned .date) utc (dots 4)).run =
        some (.ok ⟨11, Bytes.ofString "0999"⟩) ∧
      (Kind.writeTerminated? ⟨true⟩ (.zoned .date) utc (dots 13)).run =
        some (.ok ⟨11, Bytes.ofString "0999-12-31Z" ++ 0 :: dots 1⟩) := by
  intro west utc dots
  have hwest : Kind.Valid (.zoned .dateTime) west :=
    ⟨show DateTime.Valid west.wall by decide, show Zoned.ValidOffset west.offset by decide⟩
  have hutc : Kind.Valid (.zoned .date) utc :=
    ⟨show Date.Valid utc.wall by decide, show Zoned.ValidOffset utc.offset by decide⟩
  have htext := written_as_text holds_holdUpTo hwest {}
  have hcut := written_as_text holds_holdUpTo hutc ⟨true⟩
  refine ⟨⟨holds_holdUpTo, hwest, hutc⟩, htext.string_steps, ?_, ?_, ?_, ?_⟩
  · exact htext.string.trans (by decide +kernel)
  · exact (htext.exact _).trans (by decide +kernel)
  · rw [hcut.terminated_steps, hcut.terminated]
    decide +kernel
  · rw [hcut.terminated_steps, hcut.terminated]
    decide +kernel

end TextCodec.Interchange
