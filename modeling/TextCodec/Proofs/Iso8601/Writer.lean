import Mathlib.Algebra.Ring.Nat
import Mathlib.Tactic.Common
import TextCodec.Iso8601.Canonical
import TextCodec.Proofs.Calendar.DayCount

/-!
# Writing field by field

A text is not built as a list and then put into a buffer. Its fields are written into the buffer one
after another, at a place that moves on. A byte that would stand beyond the end of the buffer is
lost without a word, and so is a field that does not have all of its places; of a number that is too
large for its field, the high digits are lost. A number is written from its last digit on.

`Writes m text` says that none of this happens where a buffer has room for `text`: the steps `m` put
`text` behind what was written before, and leave the rest of the buffer as it was. It is kept by
`>>=` (`Writes.bind`), so the parts of a text are written if its fields are (`writes_dateTime`,
`writes_zone`).
-/

namespace TextCodec.Iso8601

open Calendar Decimal

/-! ## The writer -/

/-- A buffer that is filled from its front, and the place where it goes on. -/
structure Writer where
  buffer : Bytes
  place : Nat
deriving DecidableEq, Repr

/-- Steps of a writer. They end in `none` if an assertion fails. -/
abbrev Writing := StateT Writer Option Unit

namespace Writer

/-- Writes a byte, if there is a place for it. -/
def byte (b : UInt8) : Writing :=
  modify fun w => ⟨w.buffer.set w.place b, w.place + 1⟩

/-- Puts the low digits of a number in as many places, from the last place on, and returns what is
left of the number. -/
def fill (n : UInt32) : (places : Bytes) → Bytes × UInt32
  | [] => ([], n)
  | _ :: places =>
    let (run, n) := fill n places
    ((48 + (n % 10).toUInt8) :: run, n / 10)

/-- Writes the low digits of a number into a field, if the buffer has all of its places. -/
def number (width : Nat) (n : UInt32) : Writing :=
  modify fun w =>
    let stop := w.place + width
    if stop ≤ w.buffer.length then
      let field := (w.buffer.take stop).drop w.place
      ⟨w.buffer.take w.place ++ (fill n field).1 ++ w.buffer.drop stop, stop⟩
    else ⟨w.buffer, stop⟩

def date (d : Date) : Writing := do
  number 4 (.ofNat d.year)
  byte '-'.toUInt8
  number 2 (.ofNat d.month)
  byte '-'.toUInt8
  number 2 (.ofNat d.day)

def time (t : Time) : Writing := do
  number 2 (.ofNat t.hour)
  byte ':'.toUInt8
  number 2 (.ofNat t.minute)
  byte ':'.toUInt8
  number 2 (.ofNat t.second)
  byte '.'.toUInt8
  number 3 (.ofNat t.millisecond)

def dateTime (a : DateTime) : Writing := do
  date a.date
  byte 'T'.toUInt8
  time a.time

/-- Writes an offset, which is asserted to be a day at most. -/
def zone (style : Style) (offset : Int) : Writing := do
  if offset = 0 ∧ style.abbreviatesUtc then byte 'Z'.toUInt8
  else
    let minutes := offset.natAbs
    guard (minutes ≤ 24 * 60)
    byte (if offset < 0 then '-'.toUInt8 else '+'.toUInt8)
    number 2 (.ofNat (minutes / 60))
    byte ':'.toUInt8
    number 2 (.ofNat (minutes % 60))

/-! ## What was written -/

/-- The writer that has put a text at the front of a buffer. -/
def having (buffer text : Bytes) : Writer := ⟨text ++ buffer.drop text.length, text.length⟩

theorem having_nil (buffer : Bytes) : having buffer [] = ⟨buffer, 0⟩ := rfl

end Writer

/-- Where a buffer has room for `text`, the steps put it behind what was written before. -/
def Writes (m : Writing) (text : Bytes) : Prop :=
  ∀ buffer before : Bytes, before.length + text.length ≤ buffer.length →
    m.run (.having buffer before) = some ((), .having buffer (before ++ text))

section Steps

variable {m m' : Writing} {a b : Bytes}

theorem Writes.bind (hm : Writes m a) (hm' : Writes m' b) :
    Writes (m >>= fun _ => m') (a ++ b) := by
  intro buffer before hroom
  rw [List.length_append] at hroom
  rw [StateT.run_bind, hm buffer before (by omega), ← List.append_assoc]
  apply hm' buffer (before ++ a)
  rw [List.length_append]
  omega

theorem writes_byte (b : UInt8) : Writes (Writer.byte b) [b] := by
  intro buffer before hroom
  have hlt : before.length < buffer.length := hroom
  have hset : (before ++ buffer.drop before.length).set before.length b =
      before ++ [b] ++ buffer.drop (before.length + 1) := by
    rw [List.set_append_right _ _ (Nat.le_refl _), Nat.sub_self,
      List.drop_eq_getElem_cons hlt, List.set_cons_zero, List.append_assoc,
      List.singleton_append]
  show some ((), Writer.mk _ _) = _
  unfold Writer.having
  dsimp only
  rw [hset, List.length_append, List.length_singleton]

/-! ## Numbers -/

theorem add_mod_ten_eq_lastDigit (n : UInt32) : 48 + (n % 10).toUInt8 = lastDigit n.toNat := by
  apply UInt8.toNat_inj.1
  unfold lastDigit
  rw [UInt8.toNat_add, UInt32.toNat_toUInt8, UInt32.toNat_mod, UInt8.toNat_ofNat']
  have hten : (10 : UInt32).toNat = 10 := rfl
  have hzero : (48 : UInt8).toNat = 48 := rfl
  rw [hten, hzero]
  omega

/-- The first digit of a field stands for what the others leave of the number. -/
theorem digits_succ (width n : Nat) :
    digits (width + 1) n = lastDigit (n / 10 ^ width) :: digits width n := by
  induction width generalizing n with
  | zero => simp [digits]
  | succ width ih =>
    rw [digits, ih, List.cons_append, Nat.div_div_eq_div_mul, ← Nat.pow_succ']
    rfl

/-- Writing from the last digit on gives the digits of a field. -/
theorem fill_eq (n : UInt32) (places : Bytes) :
    (Writer.fill n places).1 = digits places.length n.toNat ∧
      (Writer.fill n places).2.toNat = n.toNat / 10 ^ places.length := by
  induction places with
  | nil => simp [Writer.fill, digits]
  | cons p places ih =>
    obtain ⟨hrun, hrest⟩ := ih
    unfold Writer.fill
    dsimp only
    have hten : (10 : UInt32).toNat = 10 := rfl
    rw [hrun, add_mod_ten_eq_lastDigit, hrest, UInt32.toNat_div, hrest, hten, List.length_cons,
      digits_succ, Nat.pow_succ, Nat.div_div_eq_div_mul]
    exact ⟨rfl, rfl⟩

theorem writes_number (width : Nat) {n : Nat} (h : n < 2 ^ 32) :
    Writes (Writer.number width (.ofNat n)) (digits width n) := by
  intro buffer before hroom
  rw [length_digits] at hroom
  have hn : (UInt32.ofNat n).toNat = n := UInt32.toNat_ofNat_of_lt' h
  have hlen : (before ++ buffer.drop before.length).length = buffer.length := by
    rw [List.length_append, List.length_drop]
    omega
  have hplaces : (((before ++ buffer.drop before.length).take (before.length + width)).drop
      before.length).length = width := by
    rw [List.length_drop, List.length_take, hlen]
    omega
  have hrest : (before ++ buffer.drop before.length).drop (before.length + width) =
      buffer.drop (before.length + width) := by
    rw [← List.drop_drop, List.drop_left, List.drop_drop]
  show some ((), if _ then Writer.mk _ _ else _) = _
  unfold Writer.having
  dsimp only
  rw [if_pos (by omega), List.take_left, (fill_eq _ _).1, hplaces, hn, hrest, List.length_append,
    length_digits]

end Steps

/-! ## Parts of a text -/

/-- A guard that holds does not write. -/
theorem Writes.guard_bind {c : Prop} [Decidable c] (hc : c) {m : Writing} {text : Bytes}
    (hm : Writes m text) : Writes (guard c >>= fun _ => m) text := by
  intro buffer before hroom
  rw [StateT.run_bind]
  unfold guard
  rw [if_pos hc]
  exact hm buffer before hroom

theorem writes_date {d : Date} (h : d.Valid) : Writes (Writer.date d) (dateText d) := by
  have hdays := daysInMonth_le d.year h.2.1.1 h.2.1.2
  obtain ⟨⟨-, hyear⟩, ⟨-, hmonth⟩, -, hday⟩ := h
  have hfields := (writes_number 4 (n := d.year) (by omega)).bind <|
    (writes_byte '-'.toUInt8).bind <| (writes_number 2 (n := d.month) (by omega)).bind <|
    (writes_byte '-'.toUInt8).bind <| writes_number 2 (n := d.day) (by omega)
  simpa [Writer.date, dateText] using hfields

theorem writes_time {t : Time} (h : t.Valid) : Writes (Writer.time t) (timeText t) := by
  obtain ⟨hhour, hminute, hsecond, hms⟩ := h
  have hfields := (writes_number 2 (n := t.hour) (by omega)).bind <|
    (writes_byte ':'.toUInt8).bind <| (writes_number 2 (n := t.minute) (by omega)).bind <|
    (writes_byte ':'.toUInt8).bind <| (writes_number 2 (n := t.second) (by omega)).bind <|
    (writes_byte '.'.toUInt8).bind <| writes_number 3 (n := t.millisecond) (by omega)
  simpa [Writer.time, timeText] using hfields

theorem writes_dateTime {a : DateTime} (h : a.Valid) :
    Writes (Writer.dateTime a) (dateTimeText a) := by
  have hparts := (writes_date h.1).bind <| (writes_byte 'T'.toUInt8).bind <| writes_time h.2
  simpa [Writer.dateTime, dateTimeText] using hparts

theorem writes_zone (style : Style) {offset : Int} (h : Zoned.ValidOffset offset) :
    Writes (Writer.zone style offset) (offsetText style offset) := by
  unfold Zoned.ValidOffset maxOffset at h
  unfold Writer.zone offsetText
  by_cases hutc : offset = 0 ∧ style.abbreviatesUtc
  · rw [if_pos hutc, if_pos hutc]
    exact writes_byte _
  · have hparts := (writes_byte (if offset < 0 then '-'.toUInt8 else '+'.toUInt8)).bind <|
      (writes_number 2 (n := offset.natAbs / 60) (by omega)).bind <|
      (writes_byte ':'.toUInt8).bind <| writes_number 2 (n := offset.natAbs % 60) (by omega)
    rw [if_neg hutc, if_neg hutc]
    apply Writes.guard_bind (by omega)
    simpa using hparts

end TextCodec.Iso8601
