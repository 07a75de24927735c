import TextCodec.Calendar.Span
/-!
# Times of day

Clock times with millisecond precision. The count of milliseconds since midnight is what arithmetic
works on; it wraps around midnight, and `Time.addWithDays` says how often.

A `Time` is plain data. `Time.Valid` says which times a clock shows, and `Time.check` refuses the
others.
-/

namespace TextCodec.Calendar

/-- A time of day. -/
structure Time where
  hour : Nat
  minute : Nat
  second : Nat
  millisecond : Nat := 0
deriving DecidableEq, Repr

namespace Time

/-- A time that a clock shows. -/
def Valid (t : Time) : Prop :=
  t.hour < 24 ∧ t.minute < 60 ∧ t.second < 60 ∧ t.millisecond < 1000

instance : DecidablePred Valid := fun _ => inferInstanceAs (Decidable (_ ∧ _))

def midnight : Time := ⟨0, 0, 0, 0⟩

def last : Time := ⟨23, 59, 59, 999⟩

instance : Inhabited Time := ⟨midnight⟩

/-- Times are compared by hour, then by minute, then by second, then by millisecond. -/
instance : Ord Time where
  compare a b :=
    (((compare a.hour b.hour).then (compare a.minute b.minute)).then
      (compare a.second b.second)).then (compare a.millisecond b.millisecond)

/-- The time itself if a clock shows it. Otherwise the first of its fields that is too large. -/
def check (t : Time) : Except Error Time :=
  if 24 ≤ t.hour then .error (.invalidHour t.hour)
  else if 60 ≤ t.minute then .error (.invalidMinute t.minute)
  else if 60 ≤ t.second then .error (.invalidSecond t.second)
  else if 999 < t.millisecond then .error (.invalidMillisecond t.millisecond)
  else .ok t

theorem check_of_valid {t : Time} (h : t.Valid) : t.check = .ok t := by
  obtain ⟨hh, hm, hs, hms⟩ := h
  unfold check
  rw [if_neg (by omega), if_neg (by omega), if_neg (by omega), if_neg (by omega)]

/-- The milliseconds since midnight. -/
def sinceMidnight (t : Time) : Nat :=
  ((t.hour * 60 + t.minute) * 60 + t.second) * msPerSecond + t.millisecond

theorem sinceMidnight_lt {t : Time} (h : t.Valid) : t.sinceMidnight < msPerDay := by
  obtain ⟨h1, h2, h3, h4⟩ := h
  simp only [sinceMidnight, msPerDay, msPerMinute, msPerSecond]
  omega

/-- The time at a number of milliseconds since midnight. -/
def ofSinceMidnight (n : Nat) : Time :=
  let seconds := n / msPerSecond
  ⟨seconds / 3600, seconds % 3600 / 60, seconds % 60, n % msPerSecond⟩

theorem valid_ofSinceMidnight {n : Nat} (h : n < msPerDay) : (ofSinceMidnight n).Valid := by
  simp only [msPerDay, msPerMinute, msPerSecond] at h
  simp only [Valid, ofSinceMidnight, msPerSecond]
  omega

theorem sinceMidnight_ofSinceMidnight (n : Nat) : (ofSinceMidnight n).sinceMidnight = n := by
  simp only [sinceMidnight, ofSinceMidnight, msPerSecond]
  omega

theorem ofSinceMidnight_sinceMidnight {t : Time} (h : t.Valid) :
    ofSinceMidnight t.sinceMidnight = t := by
  obtain ⟨h1, h2, h3, h4⟩ := h
  cases t
  simp only [sinceMidnight, ofSinceMidnight, msPerSecond, Time.mk.injEq] at *
  omega

/-- The time a span later, and the number of midnights passed, negative for midnights gone back. The
sum is formed in the range of spans, where it is clamped. -/
def addWithDays (t : Time) (s : Span) : Time × Int :=
  if s.isZero then (t, 0)
  else
    let sum := Span.clamp (t.sinceMidnight + s.toInt)
    (ofSinceMidnight (sum % msPerDay).toNat, sum / msPerDay)

/-- The time a span later, wrapped around midnight. -/
def add (t : Time) (s : Span) : Time := (t.addWithDays s).1

end Time

end TextCodec.Calendar
