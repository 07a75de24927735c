import TextCodec.Calendar.Zoned
import TextCodec.Iso8601.Style
import TextCodec.Text.Decimal
/-!
# Canonical texts

Every value has one text in each style. All fields have fixed width:

1. a date is `YYYY-MM-DD`;
2. a time is `hh:mm:ss.mmm`;
3. an instant is a date and a time with `T` between them;
4. a zoned value is followed by its offset, `±hh:mm`, or `Z` for UTC if the style says so.
-/

namespace TextCodec.Iso8601

open Calendar

def dateText (d : Date) : Bytes :=
  Decimal.digits 4 d.year ++ '-'.toUInt8 :: Decimal.digits 2 d.month ++
    '-'.toUInt8 :: Decimal.digits 2 d.day

def timeText (t : Time) : Bytes :=
  Decimal.digits 2 t.hour ++ ':'.toUInt8 :: Decimal.digits 2 t.minute ++
    ':'.toUInt8 :: Decimal.digits 2 t.second ++ '.'.toUInt8 :: Decimal.digits 3 t.millisecond

def dateTimeText (a : DateTime) : Bytes := dateText a.date ++ 'T'.toUInt8 :: timeText a.time

def offsetText (style : Style) (offset : Int) : Bytes :=
  if offset = 0 ∧ style.abbreviatesUtc then ['Z'.toUInt8]
  else
    let minutes := offset.natAbs
    (if offset < 0 then '-'.toUInt8 else '+'.toUInt8) :: Decimal.digits 2 (minutes / 60) ++
      ':'.toUInt8 :: Decimal.digits 2 (minutes % 60)

/-! ## Widths

The room that a text takes is known before it is written.
-/

def dateWidth : Nat := 10

def timeWidth : Nat := 12

def dateTimeWidth : Nat := 23

def maxOffsetWidth : Nat := 6

def maxWidth : Nat := dateTimeWidth + maxOffsetWidth

def offsetWidth (style : Style) (offset : Int) : Nat :=
  if offset = 0 ∧ style.abbreviatesUtc then 1 else maxOffsetWidth

theorem length_dateText (d : Date) : (dateText d).length = dateWidth := by
  simp [dateText, dateWidth, Decimal.length_digits]

theorem length_timeText (t : Time) : (timeText t).length = timeWidth := by
  simp [timeText, timeWidth, Decimal.length_digits]

theorem length_dateTimeText (a : DateTime) : (dateTimeText a).length = dateTimeWidth := by
  simp [dateTimeText, dateTimeWidth, length_dateText, length_timeText, dateWidth, timeWidth]

theorem length_offsetText (style : Style) (offset : Int) :
    (offsetText style offset).length = offsetWidth style offset := by
  unfold offsetText offsetWidth
  split <;> simp [maxOffsetWidth, Decimal.length_digits]

end TextCodec.Iso8601
