import TextCodec.Interchange.Values
import TextCodec.Proofs.Iso8601.InstantTexts

/-!
# Round trips

Every valid value is read back from its texts: in both styles, as bytes and as a string, as it is
displayed, and as a document (`RoundTrip`). The format of the document is not known here. It is
assumed to carry strings (`Interchange.Format.Carries`), as that of data does.

1. The canonical text of an offset is a zone with that offset (`isZone_offsetText`).
2. The canonical text of a time is a clock that counts the time (`isClock_timeText`).
3. So the reader of each type accepts its canonical texts, and finds the only value they can denote.
4. Canonical texts are ASCII, so that they survive as strings (`roundTrip_of_read`).
-/

namespace TextCodec.Iso8601

open Calendar Decimal

section Canonical

variable {offset : Int} {t : Time} {zone : Bytes}

/-! ## Canonical texts are texts -/

theorem isZone_offsetText (style : Style) (h : Zoned.ValidOffset offset) :
    IsZone (offsetText style offset) offset := by
  unfold Zoned.ValidOffset maxOffset at h
  have hhour : offset.natAbs / 60 ≤ 23 := by omega
  have hminute : offset.natAbs % 60 ≤ 59 := by omega
  have habs : offset.natAbs / 60 * 60 + offset.natAbs % 60 = offset.natAbs :=
    Nat.div_add_mod' _ _
  unfold offsetText
  split_ifs with hz hneg
  · rw [hz.1]
    exact .utc
  · have hzone := IsZone.behind hhour hminute
    rw [habs] at hzone
    have hoffset : -(offset.natAbs : Int) = offset := by omega
    rwa [hoffset] at hzone
  · have hzone := IsZone.ahead hhour hminute
    rw [habs] at hzone
    have hoffset : (offset.natAbs : Int) = offset := by omega
    rwa [hoffset] at hzone

theorem isFraction_digits {ms : Nat} (h : ms < 1000) :
    IsFraction ('.'.toUInt8 :: digits 3 ms) ms := by
  have hround : nearestMillisecond (digits 3 ms) = ms := by
    unfold nearestMillisecond
    rw [value_digits_of_lt h, length_digits]
    omega
  have hfraction : IsFraction ('.'.toUInt8 :: digits 3 ms) (nearestMillisecond (digits 3 ms)) :=
    .digits (by simp [digits]) (isRun_digits 3 ms)
  rwa [hround] at hfraction

theorem isClock_timeText (ht : t.Valid) (hzone : IsZone zone offset) :
    IsClock (timeText t ++ zone) t.sinceMidnight offset := by
  obtain ⟨hh, hm, hs, hms⟩ := ht
  have hclock : IsClock
      (clockText t.hour t.minute t.second ++ ('.'.toUInt8 :: digits 3 t.millisecond) ++ zone)
      (t.hour * 3600000 + t.minute * 60000 + t.second * 1000 + t.millisecond) offset :=
    .ofDay (by omega) (by omega) (by omega) (isFraction_digits hms) hzone
  have hcount : t.hour * 3600000 + t.minute * 60000 + t.second * 1000 + t.millisecond =
      t.sinceMidnight := by
    unfold Time.sinceMidnight msPerSecond
    omega
  have htext : clockText t.hour t.minute t.second ++ ('.'.toUInt8 :: digits 3 t.millisecond) =
      timeText t := by
    unfold clockText timeText
    simp only [List.append_assoc, List.cons_append]
  rwa [hcount, htext] at hclock

theorem isInstant_dateTimeText {a : DateTime} (ha : a.Valid) (hzone : IsZone zone offset) :
    IsInstant (dateTimeText a ++ zone) a.milliseconds offset := by
  refine ⟨a.date, _, _, ha.1, isClock_timeText ha.2 hzone, ?_, ?_⟩
  · unfold dateTimeText
    rw [List.append_assoc, List.cons_append]
  · rfl

end Canonical

/-! ## Readers find the value -/

section Readers

variable (style : Style)

theorem readZonedDate_append {d : Date} {zone : Bytes} {offset : Int} (hd : d.Valid)
    (hzone : IsZone zone offset) : readZonedDate (dateText d ++ zone) = .ok ⟨d, offset⟩ :=
  readZonedDate_eq_ok_iff.2 ⟨hd, zone, hzone, rfl⟩

theorem readDate_dateText {d : Date} (h : d.Valid) : readDate (dateText d) = .ok d :=
  readDate_eq_ok_iff.2 ⟨h, [], 0, .absent, (List.append_nil _).symm⟩

theorem readZonedDate_text {z : ZonedDate} (hwall : z.wall.Valid)
    (hoffset : Zoned.ValidOffset z.offset) :
    readZonedDate (dateText z.wall ++ offsetText style z.offset) = .ok z :=
  readZonedDate_append hwall (isZone_offsetText style hoffset)

theorem readLocalTime_text {t : Time} {zone : Bytes} {offset : Int} (ht : t.Valid)
    (hzone : IsZone zone offset) : readLocalTime (timeText t ++ zone) = .ok (t, offset) := by
  refine readLocalTime_eq_ok_iff.2 ⟨_, isClock_timeText ht hzone, ?_⟩
  rw [Nat.mod_eq_of_lt (Time.sinceMidnight_lt ht), Time.ofSinceMidnight_sinceMidnight ht]

/-- A time without a zone is a time in UTC. -/
theorem readTime_timeText {t : Time} (h : t.Valid) : readTime (timeText t) = .ok t := by
  have hread := readLocalTime_text h .absent
  rw [List.append_nil] at hread
  unfold readTime
  rw [hread]
  rfl

theorem readZonedTime_append {t : Time} {zone : Bytes} {offset : Int} (ht : t.Valid)
    (hzone : IsZone zone offset) : readZonedTime (timeText t ++ zone) = .ok ⟨t, offset⟩ := by
  unfold readZonedTime
  rw [readLocalTime_text ht hzone]
  exact Zoned.of_eq_ok_iff.2 ⟨hzone.validOffset, rfl⟩

theorem readZonedTime_text {z : ZonedTime} (hwall : z.wall.Valid)
    (hoffset : Zoned.ValidOffset z.offset) :
    readZonedTime (timeText z.wall ++ offsetText style z.offset) = .ok z :=
  readZonedTime_append hwall (isZone_offsetText style hoffset)

theorem readZonedDateTime_append {a : DateTime} {zone : Bytes} {offset : Int} (ha : a.Valid)
    (hzone : IsZone zone offset) : readZonedDateTime (dateTimeText a ++ zone) = .ok ⟨a, offset⟩ :=
  readZonedDateTime_eq_ok_iff.2 ⟨ha, isInstant_dateTimeText ha hzone⟩

theorem readZonedDateTime_text {z : ZonedDateTime} (hwall : z.wall.Valid)
    (hoffset : Zoned.ValidOffset z.offset) :
    readZonedDateTime (dateTimeText z.wall ++ offsetText style z.offset) = .ok z :=
  readZonedDateTime_append hwall (isZone_offsetText style hoffset)

/-- An instant without a zone is an instant in UTC. -/
theorem readDateTime_dateTimeText {a : DateTime} (h : a.Valid) :
    readDateTime (dateTimeText a) = .ok a := by
  have hinstant := isInstant_dateTimeText h .absent
  rw [List.append_nil] at hinstant
  refine readDateTime_eq_ok_iff.2 ⟨h, _, _, hinstant, DateTime.milliseconds_le h, ?_⟩
  omega

end Readers

/-! ## Canonical texts are ASCII -/

/-- All bytes are ASCII characters. -/
def IsAscii (text : Bytes) : Prop := ∀ b ∈ text, b.toNat < 128

section Ascii

variable {a b : Bytes}

theorem IsAscii.append (ha : IsAscii a) (hb : IsAscii b) : IsAscii (a ++ b) := by
  intro c hc
  rcases List.mem_append.1 hc with hc | hc
  · exact ha c hc
  · exact hb c hc

theorem IsAscii.cons {c : UInt8} (hc : c.toNat < 128) (ha : IsAscii a) : IsAscii (c :: a) := by
  intro d hd
  rcases List.mem_cons.1 hd with rfl | hd
  · exact hc
  · exact ha d hd

theorem isAscii_digits (width n : Nat) : IsAscii (digits width n) := by
  intro b hb
  have hdigit := isDigit_of_mem_digits hb
  unfold isDigit at hdigit
  rw [Bool.and_eq_true, decide_eq_true_eq, decide_eq_true_eq] at hdigit
  omega

theorem isAscii_dateText (d : Date) : IsAscii (dateText d) := by
  unfold dateText
  refine ((isAscii_digits _ _).append (.cons (by decide) (isAscii_digits _ _))).append ?_
  exact .cons (by decide) (isAscii_digits _ _)

theorem isAscii_timeText (t : Time) : IsAscii (timeText t) := by
  unfold timeText
  refine (((isAscii_digits _ _).append (.cons (by decide) (isAscii_digits _ _))).append
    (.cons (by decide) (isAscii_digits _ _))).append ?_
  exact .cons (by decide) (isAscii_digits _ _)

theorem isAscii_dateTimeText (a : DateTime) : IsAscii (dateTimeText a) :=
  (isAscii_dateText a.date).append (.cons (by decide) (isAscii_timeText a.time))

theorem isAscii_offsetText (style : Style) (offset : Int) : IsAscii (offsetText style offset) := by
  unfold offsetText
  split_ifs
  · exact .cons (by decide) (by simp [IsAscii])
  · exact (IsAscii.cons (by decide) (isAscii_digits _ _)).append
      (.cons (by decide) (isAscii_digits _ _))
  · exact (IsAscii.cons (by decide) (isAscii_digits _ _)).append
      (.cons (by decide) (isAscii_digits _ _))

end Ascii

/-! ## Round trips -/

/-- The value is read back from each of its texts. -/
structure RoundTrip (F : Interchange.Format) {α : Type} [Interchange.Textual α] (value : α) :
    Prop where
  /-- From the bytes of the text. -/
  bytes : ∀ style, parse (IsoText.text style value) = .ok value
  /-- From the text as a string. -/
  string : ∀ style, parse (Bytes.ofString (toText style value)) = .ok value
  /-- From the string that is displayed. -/
  display : parse (Bytes.ofString (display value)) = .ok value
  /-- From the document that it is written to. -/
  document : ∃ document, F.ofValue value = .ok document ∧ F.toValue document = .ok value

section RoundTrips

variable {F : Interchange.Format} (hcarries : F.Carries)

include hcarries

theorem roundTrip_of_read {α : Type} [Interchange.Textual α] {value : α}
    (hascii : ∀ style, IsAscii (IsoText.text style value))
    (hread : ∀ style, IsoText.read (IsoText.text style value) = .ok value) :
    RoundTrip F value := by
  have hbytes : ∀ style, parse (IsoText.text style value) = .ok value := by
    intro style
    exact mapError_eq_ok_iff.2 (hread style)
  have hstring : ∀ style, parse (Bytes.ofString (toText style value)) = .ok value := by
    intro style
    unfold toText
    rw [Bytes.ofString_toAscii (hascii style)]
    exact hbytes style
  obtain ⟨document, hwrite, hfind⟩ := hcarries (display value)
  refine ⟨hbytes, hstring, hstring {}, document, hwrite, ?_⟩
  unfold Interchange.Format.toValue
  rw [hfind]
  exact mapError_eq_ok_iff.2 (hstring {})

/-- **Round trips.** Every valid value of the six types is read back from its texts, whatever its
offset, and so also if the same instant in UTC is not in the calendar. -/
theorem roundTrip_of_valid :
    (∀ d : Date, d.Valid → RoundTrip F d) ∧
    (∀ t : Time, t.Valid → RoundTrip F t) ∧
    (∀ a : DateTime, a.Valid → RoundTrip F a) ∧
    (∀ z : ZonedDate, z.wall.Valid → Zoned.ValidOffset z.offset → RoundTrip F z) ∧
    (∀ z : ZonedTime, z.wall.Valid → Zoned.ValidOffset z.offset → RoundTrip F z) ∧
    (∀ z : ZonedDateTime, z.wall.Valid → Zoned.ValidOffset z.offset → RoundTrip F z) := by
  refine ⟨?_, ?_, ?_, ?_, ?_, ?_⟩
  · intro d h
    exact roundTrip_of_read hcarries (fun _ => isAscii_dateText d) fun _ => readDate_dateText h
  · intro t h
    exact roundTrip_of_read hcarries (fun _ => isAscii_timeText t) fun _ => readTime_timeText h
  · intro a h
    exact roundTrip_of_read hcarries (fun _ => isAscii_dateTimeText a)
      fun _ => readDateTime_dateTimeText h
  · intro z hwall hoffset
    exact roundTrip_of_read hcarries
      (fun style => (isAscii_dateText z.wall).append (isAscii_offsetText style _))
      fun style => readZonedDate_text style hwall hoffset
  · intro z hwall hoffset
    exact roundTrip_of_read hcarries
      (fun style => (isAscii_timeText z.wall).append (isAscii_offsetText style _))
      fun style => readZonedTime_text style hwall hoffset
  · intro z hwall hoffset
    exact roundTrip_of_read hcarries
      (fun style => (isAscii_dateTimeText z.wall).append (isAscii_offsetText style _))
      fun style => readZonedDateTime_text style hwall hoffset

end RoundTrips

/-- Values at the ends of their types. The local instant is less than an offset after the first
one, so it has no instant in UTC. -/
theorem roundTrip_first_and_last :
    let F := Interchange.Datum.format
    F.Carries ∧ RoundTrip F Date.last ∧ RoundTrip F Time.last ∧ RoundTrip F DateTime.first ∧
      RoundTrip F (⟨Date.first, -1439⟩ : ZonedDate) ∧
      RoundTrip F (⟨Time.midnight, 0⟩ : ZonedTime) ∧
      (ZonedDateTime.utc ⟨DateTime.first, 1439⟩ = .error .arithmeticOverflow ∧
        RoundTrip F (⟨DateTime.first, 1439⟩ : ZonedDateTime)) := by
  intro F
  have hcarries : F.Carries := Interchange.Datum.carries_format
  obtain ⟨hdate, htime, hinstant, hzonedDate, hzonedTime, hzonedInstant⟩ :=
    roundTrip_of_valid hcarries
  exact ⟨hcarries, hdate _ (by decide), htime _ (by decide), hinstant _ (by decide),
    hzonedDate _ (by decide) (by decide), hzonedTime _ (by decide) (by decide), by decide +kernel,
    hzonedInstant _ (by decide) (by decide)⟩

end TextCodec.Iso8601
