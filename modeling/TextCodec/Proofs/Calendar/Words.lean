import Mathlib.Algebra.Ring.Int.Defs
import Mathlib.Tactic.Common
import TextCodec.Proofs.Calendar.Instant

/-!
# Calendar arithmetic in machine words

Counts of milliseconds are kept in signed words of 64 bits. There a sum may wrap around, a division
rounds toward zero, and the opposite of the least word is clamped. Here the arithmetic of times,
dates and instants is written with such words, step by step, and shown to be the arithmetic on
integers: counts of instants are too small to wrap, a sum that does not fit is refused, and one that
is clamped is the clamped integer.

1. Operations on words, and the integers that they stand for (`Word.toInt_divEuclid`,
   `Word.toInt_saturatingAdd`).
2. Adding to a time of day and to a date (`Time.addWithDays64_eq`, `Date.addDays64_eq`).
3. Counting in words is counting (`DateTime.toInt_milliseconds64`), and the instant that is found
   for a word is the one of its integer (`DateTime.ofMilliseconds64_eq`).
4. So addition, subtraction and difference are what they are on integers (`DateTime.add64_eq`,
   `DateTime.sub64_eq`, `DateTime.since64_eq`).
-/

namespace TextCodec.Calendar

/-! ## Words -/

namespace Word

variable {x y : Int64}

/-- The sum, unless it does not fit. -/
def checkedAdd (x y : Int64) : Option Int64 :=
  if Span.minMs ≤ x.toInt + y.toInt ∧ x.toInt + y.toInt ≤ Span.maxMs then some (x + y) else none

/-- The sum, or the nearest word if it does not fit. -/
def saturatingAdd (x y : Int64) : Int64 :=
  match checkedAdd x y with
  | some z => z
  | none => if x < 0 then Int64.minValue else Int64.maxValue

/-- The opposite word, or the greatest if it does not fit. -/
def saturatingNeg (x : Int64) : Int64 := if x = Int64.minValue then Int64.maxValue else -x

/-- The quotient for which the remainder is not negative. -/
def divEuclid (x y : Int64) : Int64 :=
  if x % y < 0 then (if 0 < y then x / y - 1 else x / y + 1) else x / y

/-- The remainder that is not negative. -/
def remEuclid (x y : Int64) : Int64 :=
  if x % y < 0 then (if y < 0 then x % y - y else x % y + y) else x % y

/-- The low eight bits. -/
def low8 (x : Int64) : UInt8 := x.toUInt64.toUInt8

/-- The low sixteen bits. -/
def low16 (x : Int64) : UInt16 := x.toUInt64.toUInt16

theorem toInt_bounds (x : Int64) : -2 ^ 63 ≤ x.toInt ∧ x.toInt < 2 ^ 63 :=
  ⟨Int64.le_toInt x, Int64.toInt_lt x⟩

theorem toInt_add (h1 : -2 ^ 63 ≤ x.toInt + y.toInt) (h2 : x.toInt + y.toInt < 2 ^ 63) :
    (x + y).toInt = x.toInt + y.toInt := by
  rw [Int64.toInt_add, Int.bmod_eq_of_le] <;> omega

theorem toInt_sub (h1 : -2 ^ 63 ≤ x.toInt - y.toInt) (h2 : x.toInt - y.toInt < 2 ^ 63) :
    (x - y).toInt = x.toInt - y.toInt := by
  rw [Int64.toInt_sub, Int.bmod_eq_of_le] <;> omega

theorem toInt_div (hy : 0 < y.toInt) : (x / y).toInt = x.toInt.tdiv y.toInt := by
  apply Int64.toInt_div_of_ne_right
  rintro rfl
  exact absurd hy (by decide)

section Euclid

variable (hy : 0 < y.toInt)

include hy

/-- The quotient that is rounded toward zero is one too large where the remainder is negative. -/
theorem div_mod_cases :
    (¬x % y < 0 ∧ (x / y).toInt = x.toInt / y.toInt ∧ (x % y).toInt = x.toInt % y.toInt) ∨
      (x % y < 0 ∧ (x / y).toInt = x.toInt / y.toInt + 1 ∧
        (x % y).toInt = x.toInt % y.toInt - y.toInt) := by
  have h0 := Int.emod_nonneg x.toInt (Int.ne_of_gt hy)
  have hlt := Int.emod_lt_of_pos x.toInt hy
  rw [Int64.lt_iff_toInt_lt, Int64.toInt_zero, toInt_div hy, Int64.toInt_mod, Int.tdiv_eq_ediv,
    Int.tmod_eq_emod, Int.sign_eq_one_of_pos hy]
  split_ifs
  · exact Or.inl (by omega)
  · exact Or.inr (by omega)

theorem toInt_divEuclid : (divEuclid x y).toInt = x.toInt / y.toInt := by
  have hpos : 0 < y := by rwa [Int64.lt_iff_toInt_lt]
  unfold divEuclid
  rcases div_mod_cases (x := x) hy with ⟨hr, hdiv, -⟩ | ⟨hr, hdiv, -⟩
  · rw [if_neg hr, hdiv]
  · have hone : (1 : Int64).toInt = 1 := rfl
    have hle : -2 ^ 63 ≤ x.toInt / y.toInt := by
      have hx := (toInt_bounds x).1
      rw [Int.le_ediv_iff_mul_le hy]
      omega
    have hlt := (toInt_bounds (x / y)).2
    rw [if_pos hr, if_pos hpos, toInt_sub (by omega) (by omega), hdiv, hone, Int.add_sub_cancel]

theorem toInt_remEuclid : (remEuclid x y).toInt = x.toInt % y.toInt := by
  have hneg : ¬y < 0 := by
    rw [Int64.lt_iff_toInt_lt, Int64.toInt_zero]
    omega
  unfold remEuclid
  rcases div_mod_cases (x := x) hy with ⟨hr, -, hmod⟩ | ⟨hr, -, hmod⟩
  · rw [if_neg hr, hmod]
  · have h0 := Int.emod_nonneg x.toInt (Int.ne_of_gt hy)
    have hlt := Int.emod_lt_of_pos x.toInt hy
    have hy' := (toInt_bounds y).2
    rw [if_pos hr, if_neg hneg, toInt_add (by omega) (by omega), hmod, Int.sub_add_cancel]

end Euclid

theorem toInt_div_of_nonneg (hx : 0 ≤ x.toInt) (hy : 0 < y.toInt) :
    (x / y).toInt = x.toInt / y.toInt := by
  rw [toInt_div hy, Int.tdiv_eq_ediv_of_nonneg hx]

theorem toInt_mod_of_nonneg (hx : 0 ≤ x.toInt) : (x % y).toInt = x.toInt % y.toInt := by
  rw [Int64.toInt_mod, Int.tmod_eq_emod_of_nonneg hx]

theorem toNat_toUInt64 (h : 0 ≤ x.toInt) : x.toUInt64.toNat = x.toInt.toNat := by
  have hx : x.toInt = _ := BitVec.toInt_eq_toNat_cond x.toBitVec
  have hlt := x.toBitVec.isLt
  show x.toBitVec.toNat = _
  split_ifs at hx <;> omega

theorem toNat_low8 (h : 0 ≤ x.toInt) (hlt : x.toInt < 256) : (low8 x).toNat = x.toInt.toNat := by
  unfold low8
  rw [UInt64.toNat_toUInt8, toNat_toUInt64 h]
  omega

theorem toNat_low16 (h : 0 ≤ x.toInt) (hlt : x.toInt < 65536) :
    (low16 x).toNat = x.toInt.toNat := by
  unfold low16
  rw [UInt64.toNat_toUInt16, toNat_toUInt64 h]
  omega

theorem toInt_saturatingNeg : (saturatingNeg x).toInt = min (-x.toInt) Span.maxMs := by
  have hx := toInt_bounds x
  have hmin : Int64.minValue.toInt = -2 ^ 63 := Int64.toInt_minValue
  unfold saturatingNeg Span.maxMs
  split_ifs with h
  · rw [h, Int64.toInt_maxValue, hmin]
    rfl
  · rw [← Int64.toInt_inj, hmin] at h
    rw [Int64.toInt_neg, Int.bmod_eq_of_le (by omega) (by omega)]
    omega

theorem checkedAdd_cases (x y : Int64) :
    (checkedAdd x y = some (x + y) ∧ (x + y).toInt = x.toInt + y.toInt) ∨
      (checkedAdd x y = none ∧
        ¬(Span.minMs ≤ x.toInt + y.toInt ∧ x.toInt + y.toInt ≤ Span.maxMs)) := by
  unfold checkedAdd
  by_cases h : Span.minMs ≤ x.toInt + y.toInt ∧ x.toInt + y.toInt ≤ Span.maxMs
  · refine Or.inl ⟨if_pos h, ?_⟩
    unfold Span.minMs Span.maxMs at h
    exact toInt_add (by omega) (by omega)
  · exact Or.inr ⟨if_neg h, h⟩

theorem toInt_of_checkedAdd {z : Int64} (h : checkedAdd x y = some z) :
    z.toInt = x.toInt + y.toInt := by
  obtain ⟨hsum, hexact⟩ | ⟨hsum, -⟩ := checkedAdd_cases x y
  · rw [h, Option.some.injEq] at hsum
    rw [hsum, hexact]
  · rw [h] at hsum
    cases hsum

/-- A sum that does not fit is too large or too small, as its first term tells. -/
theorem toInt_saturatingAdd (x y : Int64) :
    (saturatingAdd x y).toInt = Span.clamp (x.toInt + y.toInt) := by
  have hx := toInt_bounds x
  have hy := toInt_bounds y
  unfold saturatingAdd Span.clamp
  rcases checkedAdd_cases x y with ⟨hsum, hexact⟩ | ⟨hsum, hout⟩
  · have hlt := toInt_bounds (x + y)
    rw [hsum]
    show (x + y).toInt = _
    unfold Span.minMs Span.maxMs
    omega
  · have hneg : x < 0 ↔ x.toInt < 0 := by rw [Int64.lt_iff_toInt_lt, Int64.toInt_zero]
    rw [hsum]
    show (if x < 0 then Int64.minValue else Int64.maxValue).toInt = _
    unfold Span.minMs Span.maxMs at hout ⊢
    split_ifs with h
    · rw [hneg] at h
      rw [Int64.toInt_minValue]
      omega
    · rw [hneg] at h
      rw [Int64.toInt_maxValue]
      omega

end Word

theorem toInt_msPerDay64 : (Int64.ofNat msPerDay).toInt = msPerDay := by decide

theorem toInt_divEuclid_msPerDay (n : Int64) :
    (Word.divEuclid n (.ofNat msPerDay)).toInt = n.toInt / msPerDay := by
  rw [Word.toInt_divEuclid (by decide), toInt_msPerDay64]

/-! ## Times of day -/

namespace Time

/-- The milliseconds since midnight, counted in words of 32 bits. -/
def sinceMidnight32 (t : Time) : UInt32 :=
  ((.ofNat t.hour * 60 + .ofNat t.minute) * 60 + .ofNat t.second) * .ofNat msPerSecond +
    .ofNat t.millisecond

/-- The time at a number of milliseconds since midnight, cut to words of the size of its fields. -/
def ofSinceMidnight64 (n : Int64) : Time :=
  let seconds := n / 1000
  ⟨(Word.low8 (seconds / 3600)).toNat, (Word.low8 (seconds % 3600 / 60)).toNat,
    (Word.low8 (seconds % 60)).toNat, (Word.low16 (n % 1000)).toNat⟩

theorem toNat_sinceMidnight32 {t : Time} (h : t.Valid) :
    t.sinceMidnight32.toNat = t.sinceMidnight := by
  have hlt := sinceMidnight_lt h
  have heq : t.sinceMidnight32 = .ofNat t.sinceMidnight := by
    unfold sinceMidnight32 sinceMidnight
    rw [UInt32.ofNat_add, UInt32.ofNat_mul, UInt32.ofNat_add, UInt32.ofNat_mul, UInt32.ofNat_add,
      UInt32.ofNat_mul]
    rfl
  rw [msPerDay_eq] at hlt
  rw [heq, UInt32.toNat_ofNat']
  omega

theorem ofSinceMidnight64_eq {n : Int64} (h0 : 0 ≤ n.toInt) (hlt : n.toInt < msPerDay) :
    ofSinceMidnight64 n = ofSinceMidnight n.toInt.toNat := by
  have hseconds : (n / 1000).toInt = n.toInt / 1000 := Word.toInt_div_of_nonneg h0 (by decide)
  have hs0 : 0 ≤ (n / 1000).toInt := by omega
  have hhour : (n / 1000 / 3600).toInt = (n / 1000).toInt / 3600 :=
    Word.toInt_div_of_nonneg hs0 (by decide)
  have hrest : (n / 1000 % 3600).toInt = (n / 1000).toInt % 3600 := Word.toInt_mod_of_nonneg hs0
  have hminute : (n / 1000 % 3600 / 60).toInt = (n / 1000 % 3600).toInt / 60 :=
    Word.toInt_div_of_nonneg (by omega) (by decide)
  have hsecond : (n / 1000 % 60).toInt = (n / 1000).toInt % 60 := Word.toInt_mod_of_nonneg hs0
  have hms : (n % 1000).toInt = n.toInt % 1000 := Word.toInt_mod_of_nonneg h0
  rw [msPerDay_eq] at hlt
  unfold ofSinceMidnight64 ofSinceMidnight msPerSecond
  dsimp only
  rw [Word.toNat_low8 (by omega) (by omega), Word.toNat_low8 (by omega) (by omega),
    Word.toNat_low8 (by omega) (by omega), Word.toNat_low16 (by omega) (by omega), Time.mk.injEq]
  omega

theorem ofSinceMidnight64_remEuclid (n : Int64) :
    ofSinceMidnight64 (Word.remEuclid n (.ofNat msPerDay)) =
      ofSinceMidnight (n.toInt % msPerDay).toNat := by
  have hrest : (Word.remEuclid n (.ofNat msPerDay)).toInt = n.toInt % msPerDay := by
    rw [Word.toInt_remEuclid (by decide), toInt_msPerDay64]
  rw [ofSinceMidnight64_eq, hrest]
  · rw [hrest, msPerDay_eq]
    omega
  · rw [hrest, msPerDay_eq]
    omega

/-- The time a span later, and the number of midnights passed. -/
def addWithDays64 (t : Time) (s : Span) : Time × Int64 :=
  if s.isZero then (t, 0)
  else
    let sum := Word.saturatingAdd (.ofNat t.sinceMidnight32.toNat) s.milliseconds
    (ofSinceMidnight64 (Word.remEuclid sum (.ofNat msPerDay)), Word.divEuclid sum (.ofNat msPerDay))

theorem addWithDays64_eq {t : Time} (h : t.Valid) (s : Span) :
    (t.addWithDays64 s).1 = (t.addWithDays s).1 ∧
      (t.addWithDays64 s).2.toInt = (t.addWithDays s).2 := by
  unfold addWithDays64 addWithDays
  by_cases hzero : s.isZero = true
  · rw [if_pos hzero, if_pos hzero]
    exact ⟨rfl, rfl⟩
  · have hlt := sinceMidnight_lt h
    have hcount : (Int64.ofNat t.sinceMidnight32.toNat).toInt = t.sinceMidnight := by
      rw [msPerDay_eq] at hlt
      rw [toNat_sinceMidnight32 h, Int64.toInt_ofNat_of_lt (by omega)]
    have hsum : (Word.saturatingAdd (.ofNat t.sinceMidnight32.toNat) s.milliseconds).toInt =
        Span.clamp (t.sinceMidnight + s.toInt) := by
      rw [Word.toInt_saturatingAdd, hcount]
      rfl
    rw [if_neg hzero, if_neg hzero]
    dsimp only
    rw [ofSinceMidnight64_remEuclid, toInt_divEuclid_msPerDay, hsum]
    exact ⟨rfl, rfl⟩

end Time

/-! ## Dates -/

namespace Date

/-- The date `n` days later, by a count that is cut to a word of 32 bits. -/
def addDays64 (d : Date) (n : Int64) : Except Error Date :=
  if n = 0 then .ok d
  else
    match Word.checkedAdd (.ofNat d.dayCount) n with
    | some sum =>
      if sum < 1 ∨ .ofNat maxDayCount < sum then .error .arithmeticOverflow
      else ofDayCount sum.toInt32.toInt
    | none => .error .arithmeticOverflow

theorem outOfRange64_iff (n : Int64) : (n < 1 ∨ .ofNat maxDayCount < n) ↔
    n.toInt < 1 ∨ (maxDayCount : Int) < n.toInt := by
  have hmax : (Int64.ofNat maxDayCount).toInt = maxDayCount := by decide
  rw [Int64.lt_iff_toInt_lt, Int64.lt_iff_toInt_lt, hmax, Int64.toInt_one]

/-- A count in the range of the calendar fits a word of 32 bits. -/
theorem toInt_toInt32 {n : Int64} (h : ¬(n.toInt < 1 ∨ (maxDayCount : Int) < n.toInt)) :
    n.toInt32.toInt = n.toInt := by
  unfold maxDayCount at h
  rw [Int64.toInt_toInt32, Int.bmod_eq_of_le (by omega) (by omega)]

theorem addDays64_eq {d : Date} (h : d.Valid) (n : Int64) : d.addDays64 n = d.addDays n.toInt := by
  have hmax := dayCount_le h
  have hn := Word.toInt_bounds n
  have hzero : n = 0 ↔ n.toInt = 0 := by rw [← Int64.toInt_inj, Int64.toInt_zero]
  have hcount : (Int64.ofNat d.dayCount).toInt = d.dayCount := by
    unfold maxDayCount at hmax
    rw [Int64.toInt_ofNat_of_lt (by omega)]
  unfold addDays64 addDays
  by_cases h0 : n.toInt = 0
  · rw [if_pos (hzero.2 h0), if_pos h0]
  · rw [if_neg (hzero.not.2 h0), if_neg h0]
    dsimp only
    rcases Word.checkedAdd_cases (.ofNat d.dayCount) n with ⟨hsum, hexact⟩ | ⟨hsum, hout⟩
    · rw [hcount] at hexact
      rw [hsum, ← hexact]
      simp only [outOfRange64_iff]
      split_ifs with hrange
      · rfl
      · rw [toInt_toInt32 hrange]
    · rw [hcount] at hout
      rw [hsum, if_pos]
      unfold Span.minMs Span.maxMs at hout
      unfold maxDayCount at hmax ⊢
      omega

end Date

/-! ## Instants -/

namespace DateTime

variable {a b : DateTime}

/-- The milliseconds since the first instant. -/
def milliseconds64 (a : DateTime) : Int64 :=
  (.ofNat a.date.dayCount - 1) * .ofNat msPerDay + .ofNat a.time.sinceMidnight32.toNat

/-- The instant at a number of milliseconds since the first one. -/
def ofMilliseconds64 (n : Int64) : Except Error DateTime :=
  let days := Word.saturatingAdd (Word.divEuclid n (.ofNat msPerDay)) 1
  if days < 1 ∨ .ofNat Date.maxDayCount < days then .error .arithmeticOverflow
  else do
    return ⟨← Date.ofDayCount days.toInt32.toInt,
      .ofSinceMidnight64 (Word.remEuclid n (.ofNat msPerDay))⟩

def add64 (a : DateTime) (s : Span) : Except Error DateTime :=
  if s.isZero then .ok a
  else
    match Word.checkedAdd a.milliseconds64 s.milliseconds with
    | some n => ofMilliseconds64 n
    | none => .error .arithmeticOverflow

def sub64 (a : DateTime) (s : Span) : Except Error DateTime :=
  a.add64 ⟨Word.saturatingNeg s.milliseconds⟩

def since64 (a b : DateTime) : Span := ⟨a.milliseconds64 - b.milliseconds64⟩

theorem milliseconds64_eq (h : a.Valid) : a.milliseconds64 = .ofInt a.milliseconds := by
  unfold milliseconds64 milliseconds
  rw [Time.toNat_sinceMidnight32 h.2, Int64.ofInt_add, Int64.ofInt_mul, Int64.ofInt_sub]
  rfl

theorem toInt_milliseconds64 (h : a.Valid) : a.milliseconds64.toInt = a.milliseconds := by
  have h0 := milliseconds_nonneg h
  have hmax := milliseconds_le h
  unfold maxMilliseconds at hmax
  rw [milliseconds64_eq h, Int64.toInt_ofInt_of_le (by omega) (by omega)]

theorem ofMilliseconds64_eq (n : Int64) : ofMilliseconds64 n = ofMilliseconds n.toInt := by
  have hn := Word.toInt_bounds n
  have hdays : (Word.saturatingAdd (Word.divEuclid n (.ofNat msPerDay)) 1).toInt =
      n.toInt / msPerDay + 1 := by
    rw [Word.toInt_saturatingAdd, toInt_divEuclid_msPerDay, Int64.toInt_one, msPerDay_eq]
    unfold Span.clamp Span.minMs Span.maxMs
    omega
  unfold ofMilliseconds64 ofMilliseconds
  dsimp only
  simp only [Date.outOfRange64_iff, hdays]
  split_ifs with hout
  · rfl
  · rw [← hdays] at hout
    rw [Date.toInt_toInt32 hout, hdays, Time.ofSinceMidnight64_remEuclid]

/-! ## Arithmetic -/

section Arithmetic

variable (ha : a.Valid) (s : Span)

include ha

theorem add64_eq : a.add64 s = a.add s := by
  have hsum : a.milliseconds64.toInt + s.milliseconds.toInt = a.milliseconds + s.toInt := by
    rw [toInt_milliseconds64 ha]
    rfl
  unfold add64 add
  by_cases hzero : s.isZero = true
  · rw [if_pos hzero, if_pos hzero]
  · rw [if_neg hzero, if_neg hzero]
    rcases Word.checkedAdd_cases a.milliseconds64 s.milliseconds with ⟨h, hexact⟩ | ⟨h, hout⟩
    · rw [h, ← hsum, ← hexact]
      exact ofMilliseconds64_eq _
    · rw [hsum] at hout
      rw [h, ofMilliseconds_eq_error]
      unfold maxMilliseconds
      unfold Span.minMs Span.maxMs at hout
      omega

theorem sub64_eq : a.sub64 s = a.sub s := by
  unfold sub64 sub
  rw [add64_eq ha]
  congr 1
  rw [← Span.toInt_inj, Span.toInt_neg]
  exact Word.toInt_saturatingNeg

theorem since64_eq {b : DateTime} (hb : b.Valid) : a.since64 b = a.since b := by
  unfold since64 since
  rw [milliseconds64_eq ha, milliseconds64_eq hb, Int64.ofInt_sub]

end Arithmetic

/-- Words of 64 bits count the instants, and arithmetic on them has the results of arithmetic on
integers, the refusals included. -/
structure InWords (a b : DateTime) : Prop where
  milliseconds : a.milliseconds64.toInt = a.milliseconds
  ofMilliseconds (n : Int64) : ofMilliseconds64 n = DateTime.ofMilliseconds n.toInt
  add (s : Span) : a.add64 s = a.add s
  sub (s : Span) : a.sub64 s = a.sub s
  since : b.since64 a = b.since a

theorem inWords (ha : a.Valid) (hb : b.Valid) : InWords a b where
  milliseconds := toInt_milliseconds64 ha
  ofMilliseconds := ofMilliseconds64_eq
  add := add64_eq ha
  sub := sub64_eq ha
  since := since64_eq hb ha

end DateTime

end TextCodec.Calendar
