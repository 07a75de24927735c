import TextCodec.Iso8601.Codec
import TextCodec.Proofs.Comparing
import TextCodec.Proofs.Iso8601.Fields

/-!
# Texts in order

Canonical texts sort as the values they are written for (`compare_text`): byte by byte, a text comes
before another exactly if its date, time or instant does.

1. A field holds the digits of its number, padded with zeros, so fields of one width sort as their
   numbers (`compare_digits`).
2. The parts of a text have the same widths in every text of a type, so that they are compared one
   after another (`compare_append`), and in the order in which the fields of the value are.
3. The fields of valid values are small enough for their widths.
-/

namespace TextCodec

namespace Decimal

variable {width m n : Nat}

theorem compare_lastDigit (m n : Nat) :
    compare [lastDigit m] [lastDigit n] = compare (m % 10) (n % 10) := by
  have hvalue : ∀ n, ((lastDigit n).toNat : Int) = 48 + (n % 10 : Nat) := by
    intro n
    unfold lastDigit
    rw [UInt8.toNat_ofNat']
    omega
  rw [List.compare_cons_cons, List.compare_nil_nil, Ordering.then_eq,
    UInt8.compare_eq_toNat_compare_toNat, ← compare_natCast, ← compare_natCast (m % 10)]
  exact compare_of_sub_eq (by rw [hvalue, hvalue]; omega)

/-- Fields sort as their numbers. The last digit decides only if the others are equal. -/
theorem compare_digits (hm : m < 10 ^ width) (hn : n < 10 ^ width) :
    compare (digits width m) (digits width n) = compare m n := by
  induction width generalizing m n with
  | zero =>
    obtain rfl : m = n := by omega
    rw [Nat.compare_eq_eq.2 rfl]
    rfl
  | succ width ih =>
    rw [Nat.pow_succ] at hm hn
    calc compare (digits (width + 1) m) (digits (width + 1) n)
      _ = (compare (digits width (m / 10)) (digits width (n / 10))).then
            (compare [lastDigit m] [lastDigit n]) :=
        compare_append (by rw [length_digits, length_digits]) _ _
      _ = (compare (m / 10) (n / 10)).then (compare (m % 10) (n % 10)) := by
        rw [ih (by omega) (by omega), compare_lastDigit]
      _ = compare (m / 10 * 10 + m % 10) (n / 10 * 10 + n % 10) :=
        (compare_mul_add (Nat.mod_lt m (by decide)) (Nat.mod_lt n (by decide))).symm
      _ = compare m n := by rw [Nat.div_add_mod', Nat.div_add_mod']

/-- A separator in front of both texts changes nothing. -/
theorem compare_cons_self (separator : UInt8) (a b : Bytes) :
    compare (separator :: a) (separator :: b) = compare a b := by
  rw [List.compare_cons_cons, UInt8.compare_eq_toNat_compare_toNat, Nat.compare_eq_eq.2 rfl]
  rfl

theorem compare_cons_digits (separator : UInt8) (hm : m < 10 ^ width) (hn : n < 10 ^ width) :
    compare (separator :: digits width m) (separator :: digits width n) = compare m n := by
  rw [compare_cons_self, compare_digits hm hn]

end Decimal

namespace Iso8601

open Calendar Decimal

section Texts

theorem compare_dateText {d e : Date} (hd : d.Valid) (he : e.Valid) :
    compare (dateText d) (dateText e) = compare d e := by
  obtain ⟨hy, hm, hday⟩ := fits_of_valid_date hd
  obtain ⟨hy', hm', hday'⟩ := fits_of_valid_date he
  unfold dateText
  rw [compare_append, compare_append, compare_digits hy hy', compare_cons_digits _ hm hm',
    compare_cons_digits _ hday hday']
  · rfl
  · rw [length_digits, length_digits]
  · simp only [List.length_append, List.length_cons, length_digits]

theorem fits_of_valid_time {t : Time} (h : t.Valid) :
    t.hour < 10 ^ 2 ∧ t.minute < 10 ^ 2 ∧ t.second < 10 ^ 2 ∧ t.millisecond < 10 ^ 3 := by
  obtain ⟨hh, hm, hs, hms⟩ := h
  omega

theorem compare_timeText {t u : Time} (ht : t.Valid) (hu : u.Valid) :
    compare (timeText t) (timeText u) = compare t u := by
  obtain ⟨hh, hm, hs, hms⟩ := fits_of_valid_time ht
  obtain ⟨hh', hm', hs', hms'⟩ := fits_of_valid_time hu
  unfold timeText
  rw [compare_append, compare_append, compare_append, compare_digits hh hh',
    compare_cons_digits _ hm hm', compare_cons_digits _ hs hs', compare_cons_digits _ hms hms']
  · rfl
  · rw [length_digits, length_digits]
  · simp only [List.length_append, List.length_cons, length_digits]
  · simp only [List.length_append, List.length_cons, length_digits]

theorem compare_dateTimeText {a b : DateTime} (ha : a.Valid) (hb : b.Valid) :
    compare (dateTimeText a) (dateTimeText b) = compare a b := by
  unfold dateTimeText
  rw [compare_append, compare_cons_self, compare_dateText ha.1 hb.1, compare_timeText ha.2 hb.2]
  · rfl
  · rw [length_dateText, length_dateText]

end Texts

/-- **Canonical texts sort as their values**: in either style, the texts of two dates, two times or
two instants compare as the values do. -/
theorem compare_text (style : Style) :
    (∀ d e : Date, d.Valid → e.Valid →
      compare (IsoText.text style d) (IsoText.text style e) = compare d e) ∧
    (∀ t u : Time, t.Valid → u.Valid →
      compare (IsoText.text style t) (IsoText.text style u) = compare t u) ∧
    ∀ a b : DateTime, a.Valid → b.Valid →
      compare (IsoText.text style a) (IsoText.text style b) = compare a b := by
  refine ⟨fun d e => ?_, fun t u => ?_, fun a b => ?_⟩
  · exact compare_dateText
  · exact compare_timeText
  · exact compare_dateTimeText

/-- Texts that differ in every field, of which only the first decides. -/
theorem compare_text_turn_of_year :
    let a : DateTime := ⟨⟨999, 12, 31⟩, ⟨23, 59, 59, 999⟩⟩
    let b : DateTime := ⟨⟨1000, 1, 1⟩, .midnight⟩
    (a.Valid ∧ b.Valid ∧ compare a b = .lt) ∧
      compare (IsoText.text {} a.date) (IsoText.text {} b.date) = .lt ∧
      compare (IsoText.text {} a.time) (IsoText.text {} b.time) = .gt ∧
      compare (IsoText.text {} a) (IsoText.text {} b) = .lt := by
  intro a b
  have ha : a.Valid := by decide
  have hb : b.Valid := by decide
  obtain ⟨hdates, htimes, hinstants⟩ := compare_text {}
  exact ⟨⟨ha, hb, by decide⟩, (hdates _ _ ha.1 hb.1).trans (by decide),
    (htimes _ _ ha.2 hb.2).trans (by decide), (hinstants _ _ ha hb).trans (by decide)⟩

end Iso8601

end TextCodec
