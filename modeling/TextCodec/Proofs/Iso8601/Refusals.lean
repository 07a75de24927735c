import TextCodec.Proofs.Iso8601.Agreement
import TextCodec.Proofs.Iso8601.DateTexts
import TextCodec.Proofs.Iso8601.Families

/-!
# Why texts are refused

A text is refused for its length, for its form, for one of the numbers that stand in it, or because
the instant of its numbers is not in the calendar. `Family.Blames` says which errors a text of a
family can have, and what each of them says about the text: an error with a number names one that
stands at the place of its field. No reader has another error (`parse_documented`).

1. The fields of a date and of a time are blamed for the numbers they were read from
   (`blamesDate_of_toDate`, `blamesClock_of_check`).
2. Second 60 and hour 24 pass the check of a time as 59 and 0, so only greater numbers are blamed.
3. A time is read alike alone and after a date, where its places are moved by eleven
   (`BlamesClock.append`).
4. What is left of a reader after these steps cannot fail: offsets that are read are less than a
   day, and a time is checked with less than 1000 milliseconds.
-/

namespace TextCodec.Iso8601

open Calendar Decimal

/-! ## Errors and the places they blame -/

/-- A number stands in a text at some place. -/
def HasNumber (text : Bytes) (start width n : Nat) : Prop :=
  IsNumber width ((text.drop start).take width) n

/-- The number of a date that is wrong, the first one that is. -/
inductive BlamesDate (text : Bytes) : Error → Prop
  | year (isYear : HasNumber text 0 4 0) : BlamesDate text (.invalidYear 0)
  | month {y n : Nat} (isYear : HasNumber text 0 4 y) (one_le_year : 1 ≤ y)
    (isMonth : HasNumber text 5 2 n) (out_of_range : n < 1 ∨ 12 < n) :
    BlamesDate text (.invalidMonth n)
  | day {y m n : Nat} (isYear : HasNumber text 0 4 y) (one_le_year : 1 ≤ y)
    (isMonth : HasNumber text 5 2 m) (month_in_range : 1 ≤ m ∧ m ≤ 12)
    (isDay : HasNumber text 8 2 n) (out_of_range : n < 1 ∨ daysInMonth y m < n) :
    BlamesDate text (.invalidMonthDay n)

/-- The number of a time that is wrong, the first one that is, in a text where the time begins at
some place. -/
inductive BlamesClock (text : Bytes) (start : Nat) : Error → Prop
  /-- Hour 24 where it may not stand. -/
  | endOfDay (isHour : HasNumber text start 2 24) : BlamesClock text start .misplacedEndOfDay
  | hour {n : Nat} (isHour : HasNumber text start 2 n) (out_of_range : 25 ≤ n) :
    BlamesClock text start (.invalidHour n)
  | minute {h n : Nat} (isHour : HasNumber text start 2 h) (hour_le : h ≤ 24)
    (isMinute : HasNumber text (start + 3) 2 n) (out_of_range : 60 ≤ n) :
    BlamesClock text start (.invalidMinute n)
  | second {h m n : Nat} (isHour : HasNumber text start 2 h) (hour_le : h ≤ 24)
    (isMinute : HasNumber text (start + 3) 2 m) (minute_le : m ≤ 59)
    (isSecond : HasNumber text (start + 6) 2 n) (out_of_range : 61 ≤ n) :
    BlamesClock text start (.invalidSecond n)

namespace Family

/-- The length of the shortest text of the family. -/
def minWidth : Family → Nat
  | date => 10
  | time => 8
  | instant => 19

/-- The place where the time begins. -/
def clockStart? : Family → Option Nat
  | date => none
  | time => some 0
  | instant => some 11

/-- The errors of a text that is refused as one of the family. -/
inductive Blames (f : Family) (text : Bytes) : Error → Prop
  | length (short : text.length < f.minWidth) : Blames f text (.shortText f.minWidth text.length)
  | form (long : f.minWidth ≤ text.length) : Blames f text .malformedText
  | zone (long : f.minWidth ≤ text.length) : Blames f text .malformedZone
  | date {e : Error} (hasDate : f ≠ .time) (blames : BlamesDate text e) : Blames f text e
  | clock {start : Nat} {e : Error} (hasClock : f.clockStart? = some start)
    (blames : BlamesClock text start e) : Blames f text e
  | range (isInstant : f = .instant) : Blames f text .instantOutOfRange

end Family

section Places

variable {text before : Bytes} {start width n : Nat} {e : Error}

theorem HasNumber.append (h : HasNumber text start width n) :
    HasNumber (before ++ text) (before.length + start) width n := by
  unfold HasNumber at *
  rwa [List.drop_length_add_append]

theorem BlamesClock.append (h : BlamesClock text start e) :
    BlamesClock (before ++ text) (before.length + start) e := by
  cases h with
  | endOfDay isHour => exact .endOfDay isHour.append
  | hour isHour out_of_range => exact .hour isHour.append out_of_range
  | minute isHour hour_le isMinute out_of_range =>
    exact .minute isHour.append hour_le isMinute.append out_of_range
  | second isHour hour_le isMinute minute_le isSecond out_of_range =>
    exact .second isHour.append hour_le isMinute.append minute_le isSecond.append out_of_range

end Places

/-! ## Fields -/

section Fields

variable {text rest : Bytes} {offset : Int} {ms : Nat} {e : Error}

theorem blamesDate_of_toDate {f : DateFields} (hf : dateFields text = some (f, rest))
    (h : f.toDate = .error e) : BlamesDate text e := by
  obtain ⟨hy, hm, hd, -, rfl⟩ := dateFields_eq_some_iff.1 hf
  have isYear : IsNumber 4 (digits 4 f.year) f.year := isNumber_digits hy
  have isMonth : IsNumber 2 (digits 2 f.month) f.month := isNumber_digits hm
  have isDay : IsNumber 2 (digits 2 f.day) f.day := isNumber_digits hd
  unfold DateFields.toDate Date.check at h
  dsimp only at h
  split_ifs at h with hyear hmonth hday
  · cases h
    have hzero : f.year = 0 := by omega
    rw [hzero] at isYear ⊢
    exact .year isYear
  · cases h
    exact .month isYear (by omega) isMonth hmonth
  · cases h
    exact .day isYear (by omega) isMonth (by omega) isDay hday

theorem clockFields_cases (hour minute second ms : Nat) :
    (clockFields hour minute second ms).hour = hour ∧
      (clockFields hour minute second ms).minute = minute ∧
      (second = 60 ∧ (clockFields hour minute second ms).second = 59 ∨
        second ≠ 60 ∧ (clockFields hour minute second ms).second = second) := by
  unfold clockFields
  split_ifs with hleap
  · exact ⟨rfl, rfl, Or.inl ⟨hleap, rfl⟩⟩
  · exact ⟨rfl, rfl, Or.inr ⟨hleap, rfl⟩⟩

variable {f : TimeFields} (hf : timeFields text = some (f, rest))

include hf

/-- The numbers of a time that is read, and the fields that are made of them. -/
theorem exists_hasNumber : ∃ hour minute second,
    (HasNumber text 0 2 hour ∧ HasNumber text 3 2 minute ∧ HasNumber text 6 2 second) ∧
      f.hour = hour ∧ f.minute = minute ∧
      (second = 60 ∧ f.second = 59 ∨ second ≠ 60 ∧ f.second = second) := by
  obtain ⟨hour, minute, second, ms, fraction, hh, hm, hs, -, -, rfl, rfl⟩ := exists_of_timeFields hf
  exact ⟨hour, minute, second, ⟨isNumber_digits hh, isNumber_digits hm, isNumber_digits hs⟩,
    clockFields_cases _ _ _ _⟩

theorem blamesClock_of_check (hms : ms < 1000)
    (h : Time.check ⟨f.hourOfDay, f.minute, f.second, ms⟩ = .error e) : BlamesClock text 0 e := by
  obtain ⟨hour, minute, second, ⟨isHour, isMinute, isSecond⟩, rfl, rfl, hsecond⟩ :=
    exists_hasNumber hf
  have hhour := f.hourOfDay_cases
  unfold Time.check at h
  dsimp only at h
  split_ifs at h with hh hm hs
  · cases h
    obtain ⟨-, h0, -⟩ | ⟨h24, hsame, -⟩ := hhour
    · omega
    · rw [hsame] at hh ⊢
      exact .hour isHour (by omega)
  · cases h
    exact .minute isHour (by omega) isMinute hm
  · cases h
    obtain ⟨-, h59⟩ | ⟨h60, hsame⟩ := hsecond
    · omega
    · rw [hsame] at hs ⊢
      exact .second isHour (by omega) isMinute (by omega) isSecond (by omega)
  · omega

theorem blamesClock_of_checkEndOfDay (h : f.checkEndOfDay offset = .error e) :
    BlamesClock text 0 e := by
  obtain ⟨hour, minute, second, ⟨isHour, -, -⟩, rfl, -⟩ := exists_hasNumber hf
  unfold TimeFields.checkEndOfDay at h
  split_ifs at h with hend
  cases h
  have h24 : f.hour = 24 := of_decide_eq_true hend.1
  rw [h24] at isHour
  exact .endOfDay isHour

/-- A fraction that rounds up to a second is taken out before the check. -/
theorem blamesClock_of_clock (hzone : IsZone rest offset) (h : f.clock.check = .error e) :
    BlamesClock text 0 e := by
  have hle := millisecond_le_of_timeFields hzone hf
  refine blamesClock_of_check hf ?_ h
  unfold msPerSecond
  split_ifs <;> omega

theorem blamesClock_of_toTime (h : f.toTime = .error e) : BlamesClock text 0 e := by
  unfold TimeFields.toTime at h
  rcases bind_eq_error_iff.1 h with h | ⟨t, -, h⟩
  · exact blamesClock_of_check hf (by decide) h
  · cases h

end Fields

/-! ## Readers -/

section Readers

variable {text : Bytes} {e : Error}

theorem eq_of_expect_eq_error {α : Type} {e e' : Error} {x : Option α}
    (h : expect e x = .error e') : e' = e := by
  cases x with
  | none =>
    cases h
    rfl
  | some a => cases h

theorem checkLength_eq_error_iff {width : Nat} : checkLength text width = .error e ↔
    text.length < width ∧ e = .shortText width text.length := by
  unfold checkLength
  constructor
  · intro h
    split_ifs at h with hlt
    cases h
    exact ⟨hlt, rfl⟩
  · rintro ⟨hlt, rfl⟩
    exact if_pos hlt

theorem eq_of_trailingOffset_eq_error (h : trailingOffset text = .error e) :
    e = .malformedText ∨ e = .malformedZone := by
  unfold trailingOffset at h
  split at h
  · cases h
  · split at h
    · cases h
      exact Or.inr rfl
    · cases h
    · cases h
      exact Or.inl rfl

/-- An offset that is read is less than a day. -/
theorem of_ne_error {α : Type} {wall : α} {zone : Bytes} {offset : Int} (h : IsZone zone offset) :
    Zoned.of wall offset ≠ .error e := by
  intro hof
  rw [Zoned.of_eq_ok_iff.2 ⟨h.validOffset, rfl⟩] at hof
  cases hof

theorem blames_of_checkLength {f : Family} (h : checkLength text f.minWidth = .error e) :
    f.Blames text e := by
  obtain ⟨hshort, rfl⟩ := checkLength_eq_error_iff.1 h
  exact .length hshort

theorem blames_of_trailingOffset {f : Family} {rest : Bytes} (hlong : f.minWidth ≤ text.length)
    (h : trailingOffset rest = .error e) : f.Blames text e := by
  rcases eq_of_trailingOffset_eq_error h with rfl | rfl
  · exact .form hlong
  · exact .zone hlong

theorem blames_of_readZonedDate (h : readZonedDate text = .error e) :
    Family.date.Blames text e := by
  unfold readZonedDate at h
  rcases bind_eq_error_iff.1 h with h | ⟨_, hlong, h⟩
  · exact blames_of_checkLength h
  rw [checkLength_eq_ok_iff] at hlong
  rcases bind_eq_error_iff.1 h with h | ⟨⟨f, rest⟩, hf, h⟩
  · rw [eq_of_expect_eq_error h]
    exact .form hlong
  rw [expect_eq_ok_iff] at hf
  rcases bind_eq_error_iff.1 h with h | ⟨d, -, h⟩
  · exact .date nofun (blamesDate_of_toDate hf h)
  rcases bind_eq_error_iff.1 h with h | ⟨offset, hoffset, h⟩
  · exact blames_of_trailingOffset hlong h
  · exact absurd h (of_ne_error (trailingOffset_eq_ok_iff.1 hoffset))

/-- What a time has in common alone and after a date. -/
theorem blames_of_readClock {f : Family} (before : Bytes)
    (hstart : f.clockStart? = some before.length) (hlong : f.minWidth ≤ (before ++ text).length)
    (h : readClock text = .error e) : f.Blames (before ++ text) e := by
  unfold readClock at h
  rcases bind_eq_error_iff.1 h with h | ⟨⟨fields, rest⟩, hfields, h⟩
  · rw [eq_of_expect_eq_error h]
    exact .form hlong
  rw [expect_eq_ok_iff] at hfields
  rcases bind_eq_error_iff.1 h with h | ⟨offset, -, h⟩
  · exact blames_of_trailingOffset hlong h
  rcases bind_eq_error_iff.1 h with h | ⟨_, -, h⟩
  · exact .clock hstart (blamesClock_of_checkEndOfDay hfields h).append
  · cases h

theorem blames_of_readZonedTime (h : readZonedTime text = .error e) :
    Family.time.Blames text e := by
  rw [readZonedTime_eq] at h
  rcases bind_eq_error_iff.1 h with h | ⟨_, hlong, h⟩
  · exact blames_of_checkLength h
  rw [checkLength_eq_ok_iff] at hlong
  unfold readAlone at h
  rcases bind_eq_error_iff.1 h with h | ⟨⟨f, offset⟩, hread, h⟩
  · exact blames_of_readClock [] rfl hlong h
  obtain ⟨zone, hf, hzone, -⟩ := readClock_eq_ok_iff.1 hread
  rcases bind_eq_error_iff.1 h with h | ⟨t, -, h⟩
  · exact .clock rfl (blamesClock_of_toTime hf h)
  · exact absurd h (of_ne_error hzone)

theorem blames_of_readZonedDateTime (h : readZonedDateTime text = .error e) :
    Family.instant.Blames text e := by
  rw [readZonedDateTime_eq_readClock] at h
  rcases bind_eq_error_iff.1 h with h | ⟨_, hlong, h⟩
  · exact blames_of_checkLength h
  rw [checkLength_eq_ok_iff] at hlong
  rcases bind_eq_error_iff.1 h with h | ⟨⟨d, rest⟩, hd, h⟩
  · rw [eq_of_expect_eq_error h]
    exact .form hlong
  rw [expect_eq_ok_iff] at hd
  rcases bind_eq_error_iff.1 h with h | ⟨clock, hclock, h⟩
  · rw [eq_of_expect_eq_error h]
    exact .form hlong
  rw [expect_eq_ok_iff, literal_eq_some_iff] at hclock
  obtain ⟨before, hlen, hbefore⟩ : ∃ before, before.length = 11 ∧ text = before ++ clock := by
    obtain ⟨-, -, -, -, rfl⟩ := dateFields_eq_some_iff.1 hd
    refine ⟨dateText ⟨d.year, d.month, d.day⟩ ++ ['T'.toUInt8], ?_, ?_⟩
    · rw [List.length_append, length_dateText]
      rfl
    · rw [hclock, List.append_assoc, List.singleton_append]
  have hstart : Family.instant.clockStart? = some before.length := by rw [hlen]; rfl
  rw [hbefore] at hlong ⊢
  rcases bind_eq_error_iff.1 h with h | ⟨⟨t, offset⟩, hread, h⟩
  · exact blames_of_readClock before hstart hlong h
  obtain ⟨zone, ht, hzone, -⟩ := readClock_eq_ok_iff.1 hread
  rcases bind_eq_error_iff.1 h with h | ⟨date, -, h⟩
  · rw [← hbefore]
    exact .date nofun (blamesDate_of_toDate hd h)
  rcases bind_eq_error_iff.1 h with h | ⟨a, -, h⟩
  · unfold instantOn at h
    rcases bind_eq_error_iff.1 h with h | ⟨time, -, h⟩
    · exact .clock hstart (blamesClock_of_clock ht hzone h).append
    · obtain ⟨-, -, rfl⟩ := mapError_eq_error_iff.1 h
      exact .range rfl
  · exact absurd h (of_ne_error hzone)

/-! Types without an offset are refused as the others of their families, and an instant that has
none in UTC is out of range. -/

theorem blames_of_readDate (h : readDate text = .error e) : Family.date.Blames text e := by
  rw [readDate_eq, map_eq_error_iff] at h
  exact blames_of_readZonedDate h

theorem blames_of_readTime (h : readTime text = .error e) : Family.time.Blames text e := by
  rw [readTime_eq, map_eq_error_iff] at h
  exact blames_of_readZonedTime h

theorem blames_of_readDateTime (h : readDateTime text = .error e) :
    Family.instant.Blames text e := by
  unfold readDateTime at h
  rcases bind_eq_error_iff.1 h with h | ⟨z, -, h⟩
  · exact blames_of_readZonedDateTime h
  · obtain ⟨-, -, rfl⟩ := mapError_eq_error_iff.1 h
    exact .range rfl

end Readers

/-! ## Documented errors -/

/-- The names of the errors that a reader can have. -/
def readingErrors : List String :=
  ["InvalidParsingLength", "InvalidParsingBytes", "InvalidParsingTimezone",
    "InvalidParsingClockTime", "ParsedValueOutOfRange", "InvalidYear", "InvalidMonth",
    "InvalidMonthDay", "InvalidHour", "InvalidMinute", "InvalidSecond"]

namespace Family

/-- What is documented of the errors of a reader of the family. -/
structure Documented (f : Family) {α : Type} (read : Bytes → Except Failure α) : Prop where
  name {text : Bytes} {e : Failure} : read text = .error e →
    ∃ c, e = .calendar c ∧ c.name ∈ readingErrors
  /-- A text is refused for its length exactly if it is too short for the family. -/
  shortText {text : Bytes} {expected received : Nat} :
    read text = .error (.calendar (.shortText expected received)) ↔
      text.length < f.minWidth ∧ expected = f.minWidth ∧ received = text.length
  instantOutOfRange {text : Bytes} :
    read text = .error (.calendar .instantOutOfRange) → f = .instant
  misplacedEndOfDay {text : Bytes} : read text = .error (.calendar .misplacedEndOfDay) →
    ∃ start, f.clockStart? = some start ∧ HasNumber text start 2 24
  invalidHour {text : Bytes} {n : Nat} : read text = .error (.calendar (.invalidHour n)) → 25 ≤ n
  invalidSecond {text : Bytes} {n : Nat} :
    read text = .error (.calendar (.invalidSecond n)) → 61 ≤ n
  /-- What an error says is so. -/
  blames {text : Bytes} {e : Error} : read text = .error (.calendar e) → f.Blames text e

section Documented

variable {f : Family} {text : Bytes} {e : Error}

theorem name_mem_of_blames (h : f.Blames text e) : e.name ∈ readingErrors := by
  unfold readingErrors
  cases h with
  | length => simp [Error.name]
  | form => simp [Error.name]
  | zone => simp [Error.name]
  | date _ h => cases h <;> simp [Error.name]
  | clock _ h => cases h <;> simp [Error.name]
  | range => simp [Error.name]

theorem blames_shortText_iff {expected received : Nat} :
    f.Blames text (.shortText expected received) ↔
      text.length < f.minWidth ∧ expected = f.minWidth ∧ received = text.length := by
  constructor
  · intro h
    cases h with
    | length short => exact ⟨short, rfl, rfl⟩
    | date _ h => cases h
    | clock _ h => cases h
  · rintro ⟨hlt, rfl, rfl⟩
    exact .length hlt

theorem eq_instant_of_blames (h : f.Blames text .instantOutOfRange) : f = .instant := by
  cases h with
  | date _ h => cases h
  | clock _ h => cases h
  | range isInstant => exact isInstant

theorem hasNumber_of_blames (h : f.Blames text .misplacedEndOfDay) :
    ∃ start, f.clockStart? = some start ∧ HasNumber text start 2 24 := by
  cases h with
  | date _ h => cases h
  | clock hasClock h =>
    cases h with
    | endOfDay isHour => exact ⟨_, hasClock, isHour⟩

theorem le_of_blames_hour {n : Nat} (h : f.Blames text (.invalidHour n)) : 25 ≤ n := by
  cases h with
  | date _ h => cases h
  | clock _ h =>
    cases h with
    | hour _ out_of_range => exact out_of_range

theorem le_of_blames_second {n : Nat} (h : f.Blames text (.invalidSecond n)) : 61 ≤ n := by
  cases h with
  | date _ h => cases h
  | clock _ h =>
    cases h with
    | second _ _ _ _ _ out_of_range => exact out_of_range

/-- A reader is documented if it refuses short texts, and blames what it refuses. -/
theorem documented_of_blames {α : Type} {read : Bytes → Except Error α}
    (hshort : ∀ text, text.length < f.minWidth →
      read text = .error (.shortText f.minWidth text.length))
    (hblames : ∀ text e, read text = .error e → f.Blames text e) :
    f.Documented fun text => (read text).mapError .calendar := by
  have hread : ∀ {text e}, (read text).mapError .calendar = .error (Failure.calendar e) →
      f.Blames text e := by
    intro text e h
    obtain ⟨e', he, heq⟩ := mapError_eq_error_iff.1 h
    cases heq
    exact hblames text e he
  constructor
  case name =>
    intro text e h
    obtain ⟨c, hc, rfl⟩ := mapError_eq_error_iff.1 h
    exact ⟨c, rfl, name_mem_of_blames (hblames text c hc)⟩
  case shortText =>
    intro text expected received
    constructor
    · intro h
      exact blames_shortText_iff.1 (hread h)
    · rintro ⟨hlt, rfl, rfl⟩
      rw [hshort text hlt]
      rfl
  case instantOutOfRange =>
    intro text h
    exact eq_instant_of_blames (hread h)
  case misplacedEndOfDay =>
    intro text h
    exact hasNumber_of_blames (hread h)
  case invalidHour =>
    intro text n h
    exact le_of_blames_hour (hread h)
  case invalidSecond =>
    intro text n h
    exact le_of_blames_second (hread h)
  case blames => exact hread

end Documented

end Family

section Short

variable {text : Bytes}

theorem checkLength_bind_of_short {α : Type} {width : Nat} (h : text.length < width)
    (f : Unit → Except Error α) :
    (checkLength text width >>= f) = .error (.shortText width text.length) := by
  rw [checkLength_eq_error_iff.2 ⟨h, rfl⟩]
  rfl

theorem readZonedDate_of_short (h : text.length < 10) :
    readZonedDate text = .error (.shortText 10 text.length) :=
  checkLength_bind_of_short h _

theorem readDate_of_short (h : text.length < 10) :
    readDate text = .error (.shortText 10 text.length) := by
  rw [readDate_eq, map_eq_error_iff]
  exact readZonedDate_of_short h

theorem readZonedTime_of_short (h : text.length < 8) :
    readZonedTime text = .error (.shortText 8 text.length) := by
  rw [readZonedTime_eq]
  exact checkLength_bind_of_short h _

theorem readTime_of_short (h : text.length < 8) :
    readTime text = .error (.shortText 8 text.length) := by
  rw [readTime_eq, map_eq_error_iff]
  exact readZonedTime_of_short h

theorem readZonedDateTime_of_short (h : text.length < 19) :
    readZonedDateTime text = .error (.shortText 19 text.length) :=
  checkLength_bind_of_short h _

theorem readDateTime_of_short (h : text.length < 19) :
    readDateTime text = .error (.shortText 19 text.length) :=
  bind_eq_error_iff.2 (Or.inl (readZonedDateTime_of_short h))

end Short

/-- **Errors of reading.** A text that is refused has an error of reading, and never one of
arithmetic, of milliseconds, of an offset or of a day count. It is refused for its length exactly if
it is too short, and for its range only if it is read as an instant. Hour 24 is misplaced only where
it stands, so never in a date, and an hour or a second that is blamed is above 24 or 60. Whatever
number an error names stands in the text at the place of its field. -/
theorem parse_documented :
    Family.date.Documented (parse : Bytes → Except Failure Date) ∧
      Family.time.Documented (parse : Bytes → Except Failure Time) ∧
      Family.instant.Documented (parse : Bytes → Except Failure DateTime) ∧
      Family.date.Documented (parse : Bytes → Except Failure ZonedDate) ∧
      Family.time.Documented (parse : Bytes → Except Failure ZonedTime) ∧
      Family.instant.Documented (parse : Bytes → Except Failure ZonedDateTime) := by
  refine ⟨?_, ?_, ?_, ?_, ?_, ?_⟩
  · exact Family.documented_of_blames (fun _ => readDate_of_short) fun _ _ => blames_of_readDate
  · exact Family.documented_of_blames (fun _ => readTime_of_short) fun _ _ => blames_of_readTime
  · exact Family.documented_of_blames (fun _ => readDateTime_of_short)
      fun _ _ => blames_of_readDateTime
  · exact Family.documented_of_blames (fun _ => readZonedDate_of_short)
      fun _ _ => blames_of_readZonedDate
  · exact Family.documented_of_blames (fun _ => readZonedTime_of_short)
      fun _ _ => blames_of_readZonedTime
  · exact Family.documented_of_blames (fun _ => readZonedDateTime_of_short)
      fun _ _ => blames_of_readZonedDateTime

/-- Second 60 is read, and second 61 is blamed. -/
example : parse (Bytes.ofString "23:59:60") = .ok (⟨.midnight, 0⟩ : ZonedTime) ∧
    (parse (Bytes.ofString "23:59:61") : Except Failure ZonedTime) =
      .error (.calendar (.invalidSecond 61)) := by
  decide +kernel

end TextCodec.Iso8601
