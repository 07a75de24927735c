import TextCodec.Iso8601.Canonical
import TextCodec.Iso8601.Reading
/-!
# Values with an ISO 8601 text

`IsoText` collects what the six types of calendar values have in common: a canonical text in each
style, the room it takes, and a reader. Texts are written to buffers in two ways. `writeExact` asks
for enough room and writes nothing else; `writeTerminated` cuts what does not fit, and puts a zero
byte after a text that leaves room.
-/

namespace TextCodec.Iso8601

open Calendar

/-- The types of values that have an ISO 8601 text. -/
class IsoText (α : Type) where
  /-- The greatest width of a text of the type. -/
  maxWidth : Nat
  width : Style → α → Nat
  text : Style → α → Bytes
  /-- The value that a text denotes. -/
  read : Bytes → Except Error α
  check : α → Except Error α

instance : IsoText Date where
  maxWidth := dateWidth
  width _ _ := dateWidth
  text _ := dateText
  read := readDate
  check := Date.check

instance : IsoText Time where
  maxWidth := timeWidth
  width _ _ := timeWidth
  text _ := timeText
  read := readTime
  check := Time.check

instance : IsoText DateTime where
  maxWidth := dateTimeWidth
  width _ _ := dateTimeWidth
  text _ := dateTimeText
  read := readDateTime
  check := DateTime.check

instance : IsoText ZonedDate where
  maxWidth := dateWidth + maxOffsetWidth
  width style z := dateWidth + offsetWidth style z.offset
  text style z := dateText z.wall ++ offsetText style z.offset
  read := readZonedDate
  check := ZonedDate.check

instance : IsoText ZonedTime where
  maxWidth := timeWidth + maxOffsetWidth
  width style z := timeWidth + offsetWidth style z.offset
  text style z := timeText z.wall ++ offsetText style z.offset
  read := readZonedTime
  check := ZonedTime.check

instance : IsoText ZonedDateTime where
  maxWidth := dateTimeWidth + maxOffsetWidth
  width style z := dateTimeWidth + offsetWidth style z.offset
  text style z := dateTimeText z.wall ++ offsetText style z.offset
  read := readZonedDateTime
  check := ZonedDateTime.check

/-! ## Buffers -/

/-- A buffer after a text was written to it. -/
structure Written where
  length : Nat
  buffer : Bytes
deriving DecidableEq, Repr

/-- A buffer is too short for a text. -/
structure ShortBuffer where
  available : Nat
  required : Nat
deriving DecidableEq, Repr

def ShortBuffer.text (e : ShortBuffer) : String :=
  s!"buffer of {e.available} bytes can not hold an ISO-8601 representation of {e.required} bytes"

variable {α : Type} [IsoText α]

/-- Writes the text of a value to the front of a buffer that has room for it. -/
def writeExact (style : Style) (value : α) (buffer : Bytes) : Except ShortBuffer Written :=
  let required := IsoText.width style value
  if buffer.length < required then .error ⟨buffer.length, required⟩
  else
    let text := IsoText.text style value
    .ok ⟨text.length, buffer.overwrite text⟩

/-- Writes the text of a value to the front of a buffer, cut to the room there is. A zero byte
follows the text if it does not fill the buffer. -/
def writeTerminated (style : Style) (value : α) (buffer : Bytes) : Written :=
  let text := IsoText.text style value
  if text.length < buffer.length then ⟨text.length, buffer.overwrite (text ++ [0])⟩
  else ⟨text.length, buffer.overwrite text⟩

/-- The text of a value as a string. -/
def toText (style : Style) (value : α) : String := (IsoText.text style value).toAscii

/-- The text of a value in the default style. -/
def display (value : α) : String := toText {} value

end TextCodec.Iso8601
