import TextCodec.Iso8601.Canonical
import TextCodec.Proofs.Calendar.Instant
import TextCodec.Proofs.Success
import TextCodec.Proofs.Text.Decimal

/-!
# The parts of a text

What the readers of dates, times and zones accept, as forms of text.

1. A fraction of a second is a run of digits of any length. Its first four digits settle what the
   whole run rounds to (`roundFraction_eq`).
2. A zone is one of five forms (`IsZone`), and nothing may follow it (`trailingOffset_eq_ok_iff`).
3. The fields of a date have the text of the date (`toDate_dateFields_iff`).
4. The fields of a time are three numbers of two digits and perhaps a fraction
   (`timeFields_eq_some_iff`).

Each reader stops by itself where its form ends, as no digit can follow there.
-/

namespace TextCodec.Iso8601

open Calendar Decimal

/-! ## Fractions -/

/-- The fraction of a second with these digits in milliseconds, to the nearest, a half going up. -/
def nearestMillisecond (run : Bytes) : Nat :=
  (1000 * value run * 2 + 10 ^ run.length) / (10 ^ run.length * 2)

section Fraction

variable {run text rest : Bytes} {ms : Nat}

/-- The digits after the fourth change nothing: less than a unit of the fourth is left to them. -/
theorem roundFraction_eq (h : IsRun run) : roundFraction run = nearestMillisecond run := by
  unfold roundFraction nearestMillisecond
  by_cases hlen : run.length ≤ 4
  -- A short run is filled up with zeros, which leaves one case for each length.
  · have hpad : (run ++ List.replicate 4 '0'.toUInt8).take 4 =
        run ++ List.replicate (4 - run.length) '0'.toUInt8 := by
      rw [List.take_append, List.take_of_length_le hlen, List.take_replicate,
        Nat.min_eq_left (by omega)]
    rw [hpad, value_append, value_zeros, List.length_replicate]
    obtain hl | hl | hl | hl | hl : run.length = 0 ∨ run.length = 1 ∨ run.length = 2 ∨
        run.length = 3 ∨ run.length = 4 := by omega
    all_goals
      have hlt := value_lt h
      rw [hl] at hlt ⊢
      omega
  -- Of a long run, the digits `b` after the first four make less than one unit of the fourth.
  · obtain ⟨a, b, rfl, ha⟩ : ∃ a b, run = a ++ b ∧ a.length = 4 :=
      ⟨run.take 4, run.drop 4, (List.take_append_drop 4 run).symm, by
        rw [List.length_take]
        omega⟩
    have hb : value b < 10 ^ b.length := value_lt fun c hc => h c (List.mem_append_right _ hc)
    have hpos : 0 < 10 ^ b.length := Nat.pow_pos (by decide)
    rw [List.append_assoc, List.take_append, ha, List.take_of_length_le (by omega), Nat.sub_self,
      List.take_zero, List.append_nil, value_append, List.length_append, ha, Nat.pow_add]
    have hsplit : 1000 * (value a * 10 ^ b.length + value b) * 2 + 10 ^ 4 * 10 ^ b.length =
        10 ^ b.length * (2000 * value a + 10000) + 2000 * value b := by
      rw [Nat.mul_add (10 ^ b.length), Nat.mul_add 1000]
      rw [Nat.mul_comm (10 ^ b.length) (2000 * value a), Nat.mul_assoc 2000]
      omega
    have htail : 2000 * value b / 10 ^ b.length < 2000 := by
      rw [Nat.div_lt_iff_lt_mul hpos]
      omega
    rw [hsplit, Nat.mul_comm (10 ^ 4), Nat.mul_assoc (10 ^ b.length), ← Nat.div_div_eq_div_mul,
      Nat.mul_add_div hpos]
    generalize 2000 * value b / 10 ^ b.length = tail at htail ⊢
    omega

theorem nearestMillisecond_le (h : IsRun run) : nearestMillisecond run ≤ 1000 := by
  have hlt := value_lt h
  have hpos : 0 < 10 ^ run.length := Nat.pow_pos (by decide)
  unfold nearestMillisecond
  apply Nat.le_of_lt_succ
  rw [Nat.div_lt_iff_lt_mul (by omega)]
  omega

theorem fraction_eq_some_iff : fraction text = some (ms, rest) ↔
    ∃ run, text = run ++ rest ∧ run ≠ [] ∧ IsRun run ∧ NoDigit rest ∧
      ms = nearestMillisecond run := by
  constructor
  · intro h
    obtain ⟨run, rest', rfl, hrun, hrest⟩ := exists_run text
    unfold fraction at h
    dsimp only at h
    rw [takeWhile_run hrun hrest, List.drop_left] at h
    split_ifs at h with hempty
    cases h
    exact ⟨run, rfl, by simpa using hempty, hrun, hrest, roundFraction_eq hrun⟩
  · rintro ⟨run, rfl, hne, hrun, hrest, rfl⟩
    unfold fraction
    dsimp only
    rw [takeWhile_run hrun hrest, List.drop_left, if_neg (by simpa using hne),
      roundFraction_eq hrun]

end Fraction

/-- A fraction of a second, or nothing in its place. -/
inductive IsFraction : Bytes → Nat → Prop
  /-- Nothing. -/
  | absent : IsFraction [] 0
  /-- A point and a run of digits. -/
  | digits {run : Bytes} (nonempty : run ≠ []) (isRun : IsRun run) :
    IsFraction ('.'.toUInt8 :: run) (nearestMillisecond run)

theorem IsFraction.le {text : Bytes} {ms : Nat} (h : IsFraction text ms) : ms ≤ 1000 := by
  cases h with
  | absent => omega
  | digits nonempty isRun => exact nearestMillisecond_le isRun

theorem IsFraction.noDigit_append {text rest : Bytes} {ms : Nat} (h : IsFraction text ms)
    (hrest : NoDigit rest) : NoDigit (text ++ rest) := by
  cases h with
  | absent => exact hrest
  | digits nonempty isRun => exact noDigit_cons (by decide) _

/-! ## Zones -/

/-- A zone with its minutes ahead of UTC, or nothing in its place. -/
inductive IsZone : Bytes → Int → Prop
  /-- Nothing. -/
  | absent : IsZone [] 0
  /-- UTC. -/
  | utc : IsZone ['Z'.toUInt8] 0
  /-- UTC in lower case. -/
  | lowerUtc : IsZone ['z'.toUInt8] 0
  /-- Ahead of UTC. -/
  | ahead {hour minute : Nat} (hour_le : hour ≤ 23) (minute_le : minute ≤ 59) :
    IsZone ('+'.toUInt8 :: digits 2 hour ++ ':'.toUInt8 :: digits 2 minute)
      (hour * 60 + minute : Nat)
  /-- Behind UTC. -/
  | behind {hour minute : Nat} (hour_le : hour ≤ 23) (minute_le : minute ≤ 59) :
    IsZone ('-'.toUInt8 :: digits 2 hour ++ ':'.toUInt8 :: digits 2 minute)
      (-(hour * 60 + minute : Nat))

section Zone

variable {text rest : Bytes} {offset : Int} {n : Nat}

theorem IsZone.validOffset (h : IsZone text offset) : Zoned.ValidOffset offset := by
  unfold Zoned.ValidOffset maxOffset
  cases h <;> omega

/-- A zone cannot be taken for a digit or for a point. -/
theorem IsZone.stops (h : IsZone text offset) : NoDigit text ∧ text.head? ≠ some '.'.toUInt8 := by
  have hhead : ∀ b (rest : Bytes), isDigit b = false → b ≠ '.'.toUInt8 →
      NoDigit (b :: rest) ∧ (b :: rest).head? ≠ some '.'.toUInt8 := by
    intro b rest hb hne
    exact ⟨noDigit_cons hb rest, fun h => hne (Option.some.inj h)⟩
  cases h with
  | absent => exact ⟨noDigit_nil, by simp⟩
  | utc => exact hhead _ _ (by decide) (by decide)
  | lowerUtc => exact hhead _ _ (by decide) (by decide)
  | ahead => exact hhead _ _ (by decide) (by decide)
  | behind => exact hhead _ _ (by decide) (by decide)

theorem zoneMinutes_eq_some_iff : zoneMinutes text = some (n, rest) ↔
    ∃ hour minute, hour ≤ 23 ∧ minute ≤ 59 ∧ n = hour * 60 + minute ∧ NoDigit rest ∧
      text = digits 2 hour ++ ':'.toUInt8 :: digits 2 minute ++ rest := by
  unfold zoneMinutes
  simp only [Option.bind_eq_bind, Option.bind_eq_some_iff, Prod.exists,
    field_eq_some_iff (show 1 ≤ 2 by decide) (show 2 ≤ maxDigits by decide), literal_eq_some_iff]
  constructor
  · rintro ⟨hour, _, ⟨-, rfl, -⟩, _, rfl, minute, _, ⟨-, rfl, hrest⟩, hn⟩
    split_ifs at hn with hlt
    cases hn
    refine ⟨hour, minute, by omega, by omega, rfl, hrest, ?_⟩
    rw [List.append_assoc, List.cons_append]
  · rintro ⟨hour, minute, hh, hm, rfl, hrest, rfl⟩
    refine ⟨hour, _, ⟨by omega, ?_, noDigit_cons (by decide) _⟩, _, rfl, minute, rest,
      ⟨by omega, rfl, hrest⟩, if_pos (by omega)⟩
    rw [List.append_assoc, List.cons_append]

theorem zoneMinutes_digits {hour minute : Nat} (hh : hour ≤ 23) (hm : minute ≤ 59) :
    zoneMinutes (digits 2 hour ++ ':'.toUInt8 :: digits 2 minute) =
      some (hour * 60 + minute, []) :=
  zoneMinutes_eq_some_iff.2 ⟨hour, minute, hh, hm, rfl, noDigit_nil, (List.append_nil _).symm⟩

theorem zone_of_isZone (h : IsZone text offset) (hne : text ≠ []) :
    zone text = some (offset, []) := by
  cases h with
  | absent => exact absurd rfl hne
  | utc => rfl
  | lowerUtc => rfl
  | ahead hh hm =>
    rw [List.cons_append]
    simp only [zone]
    rw [if_neg (by decide), if_pos trivial, zoneMinutes_digits hh hm]
    rfl
  | behind hh hm =>
    rw [List.cons_append]
    simp only [zone]
    rw [if_neg (by decide), if_neg (by decide), if_pos trivial, zoneMinutes_digits hh hm]
    rfl

theorem exists_isZone_of_zone (h : zone text = some (offset, rest)) :
    ∃ z, IsZone z offset ∧ text = z ++ rest := by
  rcases text with _ | ⟨b, text⟩
  · cases h
  · simp only [zone] at h
    split_ifs at h with hz hplus hminus
    · cases h
      rcases hz with rfl | rfl
      · exact ⟨_, .utc, rfl⟩
      · exact ⟨_, .lowerUtc, rfl⟩
    · obtain ⟨⟨n, rest⟩, hn, hpair⟩ := Option.map_eq_some_iff.1 h
      cases hpair
      obtain ⟨hour, minute, hh, hm, rfl, -, rfl⟩ := zoneMinutes_eq_some_iff.1 hn
      rw [hplus]
      exact ⟨_, .ahead hh hm, rfl⟩
    · obtain ⟨⟨n, rest⟩, hn, hpair⟩ := Option.map_eq_some_iff.1 h
      cases hpair
      obtain ⟨hour, minute, hh, hm, rfl, -, rfl⟩ := zoneMinutes_eq_some_iff.1 hn
      rw [hminus]
      exact ⟨_, .behind hh hm, rfl⟩

theorem isZone_of_zone (h : zone text = some (offset, [])) : IsZone text offset := by
  obtain ⟨z, hz, rfl⟩ := exists_isZone_of_zone h
  rwa [List.append_nil]

/-- What follows a value is a zone, or nothing. -/
theorem trailingOffset_eq_ok_iff : trailingOffset text = .ok offset ↔ IsZone text offset := by
  rcases text with _ | ⟨b, text⟩
  · constructor
    · intro h
      cases h
      exact .absent
    · intro h
      cases h
      rfl
  · constructor
    · intro h
      simp only [trailingOffset] at h
      split at h
      · cases h
      · next hzone =>
        cases h
        exact isZone_of_zone hzone
      · cases h
    · intro h
      simp only [trailingOffset]
      rw [zone_of_isZone h (List.cons_ne_nil b text)]

end Zone

/-! ## Dates -/

section Date

variable {text rest : Bytes}

theorem dateFields_eq_some_iff {f : DateFields} : dateFields text = some (f, rest) ↔
    f.year < 10 ^ 4 ∧ f.month < 10 ^ 2 ∧ f.day < 10 ^ 2 ∧ NoDigit rest ∧
      text = dateText ⟨f.year, f.month, f.day⟩ ++ rest := by
  unfold dateFields dateText
  simp only [Option.bind_eq_bind, Option.bind_eq_some_iff, Prod.exists,
    field_eq_some_iff (show 1 ≤ 2 by decide) (show 2 ≤ maxDigits by decide),
    field_eq_some_iff (show 1 ≤ 4 by decide) (show 4 ≤ maxDigits by decide), literal_eq_some_iff]
  constructor
  · rintro ⟨y, _, ⟨hy, rfl, -⟩, _, rfl, m, _, ⟨hm, rfl, -⟩, _, rfl, d, _, ⟨hd, rfl, hrest⟩, hf⟩
    cases hf
    refine ⟨hy, hm, hd, hrest, ?_⟩
    simp only [List.append_assoc, List.cons_append]
  · rintro ⟨hy, hm, hd, hrest, rfl⟩
    refine ⟨f.year, _, ⟨hy, ?_, noDigit_cons (by decide) _⟩, _, rfl, f.month, _,
      ⟨hm, rfl, noDigit_cons (by decide) _⟩, _, rfl, f.day, rest, ⟨hd, rfl, hrest⟩, rfl⟩
    simp only [List.append_assoc, List.cons_append]

/-- The numbers of a valid date fit their places. -/
theorem fits_of_valid_date {d : Date} (h : d.Valid) :
    d.year < 10 ^ 4 ∧ d.month < 10 ^ 2 ∧ d.day < 10 ^ 2 := by
  obtain ⟨hy, hm, hd⟩ := h
  have hdays : daysInMonth d.year d.month ≤ 31 := daysInMonth_le _ hm.1 hm.2
  omega

/-- The fields of a date are read exactly from its text. -/
theorem dateFields_toDate_iff {d : Date} :
    (∃ f, dateFields text = some (f, rest) ∧ f.toDate = .ok d) ↔
      d.Valid ∧ NoDigit rest ∧ text = dateText d ++ rest := by
  unfold DateFields.toDate
  simp only [dateFields_eq_some_iff, Date.check_eq_ok_iff]
  constructor
  · rintro ⟨f, ⟨-, -, -, hrest, htext⟩, hvalid, rfl⟩
    exact ⟨hvalid, hrest, htext⟩
  · rintro ⟨hvalid, hrest, htext⟩
    obtain ⟨hy, hm, hd⟩ := fits_of_valid_date hvalid
    exact ⟨⟨d.year, d.month, d.day⟩, ⟨hy, hm, hd, hrest, htext⟩, hvalid, rfl⟩

end Date

/-! ## Times -/

/-- `hh:mm:ss`. -/
def clockText (hour minute second : Nat) : Bytes :=
  digits 2 hour ++ ':'.toUInt8 :: digits 2 minute ++ ':'.toUInt8 :: digits 2 second

/-- The fields that are read from a clock: second 60 is kept as a leap second. -/
def clockFields (hour minute second ms : Nat) : TimeFields :=
  if second = 60 then ⟨hour, minute, 59, ms, true⟩ else ⟨hour, minute, second, ms, false⟩

section Time

variable {text rest : Bytes} {ms : Nat}

theorem optionalFraction_of_isFraction (h : IsFraction text ms) (hdigit : NoDigit rest)
    (hpoint : rest.head? ≠ some '.'.toUInt8) :
    optionalFraction (text ++ rest) = some (ms, rest) := by
  cases h with
  | absent =>
    rcases rest with _ | ⟨b, rest⟩
    · rfl
    · simp only [optionalFraction, List.nil_append]
      exact if_neg fun hb => hpoint (congrArg some hb)
  | digits nonempty isRun =>
    rw [List.cons_append]
    simp only [optionalFraction]
    rw [if_pos trivial]
    exact fraction_eq_some_iff.2 ⟨_, rfl, nonempty, isRun, hdigit, rfl⟩

theorem isFraction_of_optionalFraction (h : optionalFraction text = some (ms, rest)) :
    ∃ fraction, text = fraction ++ rest ∧ IsFraction fraction ms ∧
      (NoDigit text → NoDigit rest) := by
  rcases text with _ | ⟨b, text⟩
  · cases h
    exact ⟨[], rfl, .absent, id⟩
  · simp only [optionalFraction] at h
    split_ifs at h with hb
    · obtain ⟨run, rfl, hne, hrun, hrest, rfl⟩ := fraction_eq_some_iff.1 h
      rw [hb]
      exact ⟨_, rfl, .digits hne hrun, fun _ => hrest⟩
    · cases h
      exact ⟨[], rfl, .absent, id⟩

theorem exists_of_timeFields {f : TimeFields} (h : timeFields text = some (f, rest)) :
    ∃ hour minute second ms fraction, hour < 10 ^ 2 ∧ minute < 10 ^ 2 ∧ second < 10 ^ 2 ∧
      IsFraction fraction ms ∧ NoDigit rest ∧ f = clockFields hour minute second ms ∧
        text = clockText hour minute second ++ fraction ++ rest := by
  unfold timeFields at h
  unfold clockText
  simp only [Option.bind_eq_bind, Option.bind_eq_some_iff, Prod.exists,
    field_eq_some_iff (show 1 ≤ 2 by decide) (show 2 ≤ maxDigits by decide),
    literal_eq_some_iff] at h
  obtain ⟨h, _, ⟨hh, rfl, -⟩, _, rfl, m, _, ⟨hm, rfl, -⟩, _, rfl, s, _, ⟨hs, rfl, hafter⟩, ms, left,
    hfraction, hf⟩ := h
  obtain ⟨fraction, rfl, hms, hrest⟩ := isFraction_of_optionalFraction hfraction
  have hfields : f = clockFields h m s ms ∧ left = rest := by
    unfold clockFields
    split_ifs at hf ⊢ with hleap
    · cases hf
      exact ⟨rfl, rfl⟩
    · cases hf
      exact ⟨rfl, rfl⟩
  obtain ⟨rfl, rfl⟩ := hfields
  refine ⟨h, m, s, ms, fraction, hh, hm, hs, hms, hrest hafter, rfl, ?_⟩
  simp only [List.append_assoc, List.cons_append]

/-- The fields of a time are three numbers of two digits and perhaps a fraction. -/
theorem timeFields_eq_some_iff {f : TimeFields} (hpoint : rest.head? ≠ some '.'.toUInt8) :
    timeFields text = some (f, rest) ↔
      ∃ hour minute second ms fraction, hour < 10 ^ 2 ∧ minute < 10 ^ 2 ∧ second < 10 ^ 2 ∧
        IsFraction fraction ms ∧ NoDigit rest ∧ f = clockFields hour minute second ms ∧
          text = clockText hour minute second ++ fraction ++ rest := by
  refine ⟨exists_of_timeFields, ?_⟩
  rintro ⟨h, m, s, ms, fraction, hh, hm, hs, hms, hrest, rfl, rfl⟩
  unfold timeFields clockText
  simp only [Option.bind_eq_bind, Option.bind_eq_some_iff, Prod.exists,
    field_eq_some_iff (show 1 ≤ 2 by decide) (show 2 ≤ maxDigits by decide), literal_eq_some_iff]
  refine ⟨h, _, ⟨hh, ?_, noDigit_cons (by decide) _⟩, _, rfl, m, _,
    ⟨hm, rfl, noDigit_cons (by decide) _⟩, _, rfl, s, fraction ++ rest, ⟨hs, rfl, ?_⟩, ms, rest,
    optionalFraction_of_isFraction hms hrest hpoint, ?_⟩
  · simp only [List.append_assoc, List.cons_append]
  · exact hms.noDigit_append hrest
  · unfold clockFields
    split_ifs with hleap
    · rfl
    · rfl

end Time

end TextCodec.Iso8601
