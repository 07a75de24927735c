import TextCodec.Proofs.Calendar.Arithmetic
import TextCodec.Proofs.Calendar.DayCarry
import TextCodec.Proofs.Calendar.DayShifts
import TextCodec.Proofs.Comparing

/-!
# Chronological order

Dates, times and instants are compared field by field, the greatest unit first. This is the order in
which the calendar counts them (`order_is_chronological`), although months and years differ in
length. Of two instants, the one that is a positive span after the other is the later one, and
moving both by the same amount keeps their order.

A time is a number whose places are its fields, and an instant is one whose places are its day and
its time (`compare_mul_add`). A date is not, but later dates have greater counts (`Date.Before`).
-/

namespace TextCodec.Calendar

/-- Two values are ordered as their counts are, and no different values share a count. -/
structure OrderedBy {α β : Type} [Ord α] [Ord β] (count : α → β) (a b : α) : Prop where
  compare_eq : compare a b = compare (count a) (count b)
  eq_iff : a = b ↔ count a = count b

/-! ## Dates -/

namespace Date

section Order

variable {d e d' e' : Date}

theorem compare_def (d e : Date) : compare d e =
    ((compare d.year e.year).then (compare d.month e.month)).then (compare d.day e.day) := rfl

theorem compare_eq_lt_iff : compare d e = .lt ↔ d.Before e := by
  simp only [compare_def, Ordering.then_eq_lt, Ordering.then_eq_eq, Nat.compare_eq_lt,
    Nat.compare_eq_eq]
  unfold Before
  omega

theorem compare_eq_gt_iff : compare d e = .gt ↔ e.Before d := by
  simp only [compare_def, Ordering.then_eq_gt, Ordering.then_eq_eq, Nat.compare_eq_gt,
    Nat.compare_eq_eq]
  unfold Before
  omega

theorem compare_self (d : Date) : compare d d = .eq := by
  simp only [compare_def, Ordering.then_eq_eq, Nat.compare_eq_eq, and_self]

theorem compare_dayCount (hd : d.Valid) (he : e.Valid) :
    compare d e = compare d.dayCount e.dayCount := by
  rcases before_or_eq_or_before d e with hlt | rfl | hgt
  · rw [compare_eq_lt_iff.2 hlt, Nat.compare_eq_lt.2 (dayCount_lt hd he hlt)]
  · rw [compare_self, Nat.compare_eq_eq.2 rfl]
  · rw [compare_eq_gt_iff.2 hgt, Nat.compare_eq_gt.2 (dayCount_lt he hd hgt)]

theorem orderedBy_dayCount (hd : d.Valid) (he : e.Valid) : OrderedBy dayCount d e where
  compare_eq := compare_dayCount hd he
  eq_iff := ⟨congrArg dayCount, dayCount_inj hd he⟩

/-- Dates that are moved alike keep their order. -/
theorem compare_addDays (hd : d.Valid) (he : e.Valid) {n : Int} (hd' : d.addDays n = .ok d')
    (he' : e.addDays n = .ok e') : compare d' e' = compare d e := by
  obtain ⟨hvalid, hcount⟩ := valid_of_addDays hd hd'
  obtain ⟨hvalid', hcount'⟩ := valid_of_addDays he he'
  rw [compare_dayCount hvalid hvalid', compare_dayCount hd he, ← compare_natCast,
    ← compare_natCast d.dayCount]
  exact compare_of_sub_eq (by omega)

end Order

end Date

/-! ## Times -/

namespace Time

variable {t u : Time}

/-- The places of a time, from the milliseconds up. -/
theorem compare_sinceMidnight (ht : t.Valid) (hu : u.Valid) :
    compare t u = compare t.sinceMidnight u.sinceMidnight := by
  obtain ⟨-, hm, hs, hms⟩ := ht
  obtain ⟨-, hm', hs', hms'⟩ := hu
  unfold sinceMidnight msPerSecond
  rw [compare_mul_add hms hms', compare_mul_add hs hs', compare_mul_add hm hm']
  rfl

theorem orderedBy_sinceMidnight (ht : t.Valid) (hu : u.Valid) : OrderedBy sinceMidnight t u where
  compare_eq := compare_sinceMidnight ht hu
  eq_iff := (sinceMidnight_inj ht hu).symm

end Time

/-! ## Instants -/

namespace DateTime

section Order

variable {a b a' b' : DateTime}

/-- The days are the upper place, and the time of day is the lower one. -/
theorem compare_milliseconds (ha : a.Valid) (hb : b.Valid) :
    compare a b = compare a.milliseconds b.milliseconds := by
  calc compare a b
    _ = (compare a.date b.date).then (compare a.time b.time) := rfl
    _ = (compare a.date.dayCount b.date.dayCount).then
          (compare a.time.sinceMidnight b.time.sinceMidnight) := by
      rw [Date.compare_dayCount ha.1 hb.1, Time.compare_sinceMidnight ha.2 hb.2]
    _ = compare (a.date.dayCount * msPerDay + a.time.sinceMidnight)
          (b.date.dayCount * msPerDay + b.time.sinceMidnight) :=
      (compare_mul_add (Time.sinceMidnight_lt ha.2) (Time.sinceMidnight_lt hb.2)).symm
    _ = compare a.milliseconds b.milliseconds := by
      rw [← compare_natCast]
      apply compare_of_sub_eq
      unfold milliseconds
      rw [msPerDay_eq]
      omega

/-- What is known of the order of two instants. -/
structure Chronological (a b : DateTime) : Prop where
  milliseconds : OrderedBy milliseconds a b
  timestamp : OrderedBy timestamp a b
  /-- The later one is a positive span after the other. -/
  since : compare a b = compare (a.since b).toInt 0
  since_eq_zero_iff : a = b ↔ (a.since b).toInt = 0
  /-- Instants that are moved alike keep their order. -/
  add (s : Span) (a' b' : DateTime) : a.add s = .ok a' → b.add s = .ok b' →
    compare a' b' = compare a b
  sub (s : Span) (a' b' : DateTime) : a.sub s = .ok a' → b.sub s = .ok b' →
    compare a' b' = compare a b

/-- Steps forward and back keep the order. -/
theorem compare_move (ha : a.Valid) (hb : b.Valid) {m : Move} (ha' : a.move m = .ok a')
    (hb' : b.move m = .ok b') : compare a' b' = compare a b := by
  obtain ⟨hvalid, hcount⟩ := milliseconds_move ha ha'
  obtain ⟨hvalid', hcount'⟩ := milliseconds_move hb hb'
  rw [compare_milliseconds hvalid hvalid', compare_milliseconds ha hb]
  exact compare_of_sub_eq (by omega)

theorem chronological (ha : a.Valid) (hb : b.Valid) : Chronological a b := by
  have hcompare := compare_milliseconds ha hb
  have hinj : a = b ↔ a.milliseconds = b.milliseconds :=
    ⟨congrArg DateTime.milliseconds, milliseconds_inj ha hb⟩
  have hsince := toInt_since hb ha
  refine ⟨⟨hcompare, hinj⟩, ⟨?_, ?_⟩, ?_, ?_, fun s a' b' => ?_, fun s a' b' => ?_⟩
  · rw [hcompare]
    exact compare_of_sub_eq (by unfold timestamp; omega)
  · rw [hinj]
    unfold timestamp
    omega
  · rw [hcompare, hsince]
    exact compare_of_sub_eq (by omega)
  · rw [hinj, hsince]
    omega
  · exact compare_move (m := .forward s) ha hb
  · exact compare_move (m := .back s) ha hb

end Order

end DateTime

/-- **The order is chronological.** Dates, times and instants are ordered as they are counted: dates
by day counts, times by the milliseconds since midnight, and instants by the milliseconds since the
first instant, or since 1970, or by the sign of the span between them. Dates that are moved by the
same days keep their order if both stay in the calendar, and so do instants that are moved by the
same span. -/
theorem order_is_chronological :
    (∀ d e : Date, d.Valid → e.Valid → OrderedBy Date.dayCount d e ∧
      ∀ (n : Int) (d' e' : Date), d.addDays n = .ok d' → e.addDays n = .ok e' →
        compare d' e' = compare d e) ∧
    (∀ t u : Time, t.Valid → u.Valid → OrderedBy Time.sinceMidnight t u) ∧
    ∀ a b : DateTime, a.Valid → b.Valid → DateTime.Chronological a b := by
  refine ⟨fun d e hd he => ⟨?_, ?_⟩, ?_, ?_⟩
  · exact Date.orderedBy_dayCount hd he
  · intro n d' e'
    exact Date.compare_addDays hd he
  · intro t u
    exact Time.orderedBy_sinceMidnight
  · intro a b
    exact DateTime.chronological

/-- Before and after a leap day, and a millisecond before midnight. -/
theorem order_is_chronological_leap_day :
    let d : Date := ⟨2024, 2, 29⟩
    let e : Date := ⟨2024, 3, 1⟩
    (d.Valid ∧ e.Valid ∧ OrderedBy Date.dayCount d e) ∧
      (d.addDays 366 = .ok ⟨2025, 3, 1⟩ ∧ e.addDays 366 = .ok ⟨2025, 3, 2⟩ ∧
        compare (⟨2025, 3, 1⟩ : Date) ⟨2025, 3, 2⟩ = compare d e) ∧
      OrderedBy Time.sinceMidnight .last .midnight ∧
      DateTime.Chronological ⟨d, .last⟩ ⟨e, .midnight⟩ := by
  intro d e
  have hd : d.Valid := by decide
  have he : e.Valid := by decide
  have hd' : d.addDays 366 = .ok ⟨2025, 3, 1⟩ := by decide +kernel
  have he' : e.addDays 366 = .ok ⟨2025, 3, 2⟩ := by decide +kernel
  obtain ⟨hdates, htimes, hinstants⟩ := order_is_chronological
  obtain ⟨horder, hmoved⟩ := hdates d e hd he
  exact ⟨⟨hd, he, horder⟩, ⟨hd', he', hmoved 366 _ _ hd' he'⟩,
    htimes _ _ (by decide) (by decide),
    hinstants _ _ ⟨hd, by decide⟩ ⟨he, by decide⟩⟩

end TextCodec.Calendar
