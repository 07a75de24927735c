import Mathlib.Tactic.Common
import TextCodec.Base64.Reservoir
import TextCodec.Proofs.Bits

/-!
# The reservoir as a list of bits

`Reservoir.toBits` lists the bits that wait. A symbol appends six bits (`toBits_push`), a byte takes
the first eight (`toBits_of_hasByte`), and dropping the leftovers keeps whole bytes
(`toBits_dropPartial`). So draining only moves bits from the reservoir to the buffer (`drained`).

Before that, the reservoir is a number: a symbol multiplies it by 64 and adds its value, and bytes
and leftovers are taken off by division.

The laws hold while the reservoir is `WellFormed`: an even number of at most twelve bits, and zeros
above them. Every operation keeps that, provided that no symbol is added while a byte waits.
-/

namespace TextCodec.Base64

namespace Reservoir

/-! ## The reservoir as a number -/

theorem toNat_size_push {r : Reservoir} (h : r.size.toNat < 250) (v : Nat) :
    (r.push v).size.toNat = r.size.toNat + 6 := by
  have h6 : (6 : UInt8).toNat = 6 := rfl
  simp only [push, UInt8.toNat_add, h6]
  omega

theorem toNat_bits_push {r : Reservoir} {v : Nat} (h : r.bits.toNat < 2 ^ 26) (hv : v < 64) :
    (r.push v).bits.toNat = r.bits.toNat * 64 + v := by
  have h6 : (6 : UInt32).toNat % 32 = 6 := rfl
  have hs : (r.bits <<< 6).toNat = r.bits.toNat <<< 6 := by
    rw [UInt32.toNat_shiftLeft, h6, Nat.shiftLeft_eq]
    omega
  have hw : (UInt32.ofNat v).toNat = v := by
    rw [UInt32.toNat_ofNat']
    omega
  simp only [push, UInt32.toNat_or, hs, hw]
  rw [← Nat.shiftLeft_add_eq_or_of_lt (by omega), Nat.shiftLeft_eq]

theorem toNat_size_dropPartial (r : Reservoir) :
    r.dropPartial.size.toNat = r.size.toNat - r.size.toNat % 8 := by
  have h8 : (8 : UInt8).toNat = 8 := rfl
  simp only [dropPartial]
  rw [UInt8.toNat_sub_of_le, UInt8.toNat_mod, h8]
  rw [UInt8.le_iff_toNat_le, UInt8.toNat_mod, h8]
  exact Nat.mod_le _ _

theorem toNat_bits_dropPartial (r : Reservoir) :
    r.dropPartial.bits.toNat = r.bits.toNat / 2 ^ (r.size.toNat % 8) := by
  have h8 : (8 : UInt8).toNat = 8 := rfl
  rw [dropPartial, UInt32.toNat_shiftRight, UInt8.toNat_toUInt32, UInt8.toNat_mod, h8,
    Nat.shiftRight_eq_div_pow]
  congr 2
  omega

/-- The bits that stay when a byte is taken are fewer than a word has. -/
theorem toNat_shift_mod {r : Reservoir} (h : 8 ≤ r.size.toNat) (hs : r.size.toNat ≤ 32) :
    (r.size - 8).toUInt32.toNat % 32 = r.size.toNat - 8 := by
  have h8 : (8 : UInt8).toNat = 8 := rfl
  rw [UInt8.toNat_toUInt32, UInt8.toNat_sub_of_le _ _ (by rw [UInt8.le_iff_toNat_le, h8]; exact h),
    h8]
  omega

theorem toNat_firstByte {r : Reservoir} (h : 8 ≤ r.size.toNat) (hs : r.size.toNat ≤ 32)
    (hb : r.bits.toNat < 2 ^ r.size.toNat) :
    r.firstByte.toNat = r.bits.toNat / 2 ^ (r.size.toNat - 8) := by
  have hp : 2 ^ r.size.toNat = 2 ^ (r.size.toNat - 8) * 256 := by
    rw [show (256 : Nat) = 2 ^ 8 from rfl, ← Nat.pow_add]
    congr 1
    omega
  rw [firstByte, UInt32.toNat_toUInt8, UInt32.toNat_shiftRight, toNat_shift_mod h hs,
    Nat.shiftRight_eq_div_pow, Nat.mod_eq_of_lt]
  apply Nat.div_lt_of_lt_mul
  rw [← hp]
  exact hb

theorem toNat_size_dropByte {r : Reservoir} (h : 8 ≤ r.size.toNat) :
    r.dropByte.size.toNat = r.size.toNat - 8 := by
  have h8 : (8 : UInt8).toNat = 8 := rfl
  simp only [dropByte]
  rw [UInt8.toNat_sub_of_le _ _ (by rw [UInt8.le_iff_toNat_le, h8]; exact h), h8]

/-- A one before the bits that stay when a byte is taken. -/
theorem toNat_one_shiftLeft {r : Reservoir} (h : 8 ≤ r.size.toNat) (hs : r.size.toNat ≤ 32) :
    (1 <<< (r.size - 8).toUInt32 : UInt32).toNat = 2 ^ (r.size.toNat - 8) := by
  have h1 : (1 : UInt32).toNat = 1 := rfl
  have hp : 2 ^ (r.size.toNat - 8) ≤ 2 ^ 24 := Nat.pow_le_pow_right (by decide) (by omega)
  rw [UInt32.toNat_shiftLeft, toNat_shift_mod h hs, h1, Nat.shiftLeft_eq]
  omega

theorem toNat_bits_dropByte {r : Reservoir} (h : 8 ≤ r.size.toNat) (hs : r.size.toNat ≤ 32) :
    r.dropByte.bits.toNat = r.bits.toNat % 2 ^ (r.size.toNat - 8) := by
  have h1 : (1 : UInt32).toNat = 1 := rfl
  have hsh := toNat_one_shiftLeft h hs
  have hpos : 0 < 2 ^ (r.size.toNat - 8) := Nat.two_pow_pos _
  have hm : ((1 <<< (r.size - 8).toUInt32 - 1 : UInt32)).toNat = 2 ^ (r.size.toNat - 8) - 1 := by
    rw [UInt32.toNat_sub_of_le, hsh, h1]
    rw [UInt32.le_iff_toNat_le, hsh, h1]
    omega
  rw [dropByte, UInt32.toNat_and, hm, Nat.and_two_pow_sub_one_eq_mod]

/-! ## The reservoir as a list of bits -/

/-- The bits that wait, in the order in which they came. -/
def toBits (r : Reservoir) : List Bool := Bits.ofNat r.size.toNat r.bits.toNat

@[simp] theorem length_toBits (r : Reservoir) : r.toBits.length = r.size.toNat :=
  Bits.length_ofNat _ _

/-- A reservoir between two steps of a decoder. -/
structure WellFormed (r : Reservoir) : Prop where
  /-- Symbols bring an even number of bits, and bytes take one. -/
  size_even : r.size.toNat % 2 = 0
  /-- At most one byte waits. -/
  size_le : r.size.toNat ≤ 12
  /-- Above the bits in use there are zeros. -/
  bits_lt : r.bits.toNat < 2 ^ r.size.toNat

theorem wellFormed_empty : WellFormed {} := ⟨rfl, by decide, by decide⟩

section Steps

variable {r : Reservoir} (h : r.WellFormed)

theorem size_lt_of_not_hasByte (hb : r.hasByte = false) : r.size.toNat < 8 := by
  by_contra hlt
  rw [Reservoir.hasByte_iff.2 (by omega)] at hb
  exact absurd hb (by decide)

theorem length_toBits_lt (hb : r.hasByte = false) : r.toBits.length < 8 := by
  rw [length_toBits]
  exact size_lt_of_not_hasByte hb

include h

/-- The word has room for the bits and six more. -/
theorem WellFormed.bits_lt_pow : r.bits.toNat < 2 ^ 26 :=
  Nat.lt_of_lt_of_le h.bits_lt
    (Nat.pow_le_pow_right (by decide) (Nat.le_trans h.size_le (by decide)))

theorem toBits_push {v : Nat} (hv : v < 64) : (r.push v).toBits = r.toBits ++ Bits.ofNat 6 v := by
  have hs := h.size_le
  unfold toBits
  rw [toNat_size_push (by omega), toNat_bits_push h.bits_lt_pow hv]
  exact Bits.ofNat_mul_add _ 6 _ hv

theorem WellFormed.push (hb : r.hasByte = false) {v : Nat} (hv : v < 64) :
    (r.push v).WellFormed := by
  have hs := size_lt_of_not_hasByte hb
  have he := h.size_even
  have hl := h.bits_lt
  refine ⟨?_, ?_, ?_⟩
  · rw [toNat_size_push (by omega)]
    omega
  · rw [toNat_size_push (by omega)]
    omega
  · rw [toNat_size_push (by omega), toNat_bits_push h.bits_lt_pow hv, Nat.pow_add]
    omega

theorem toBits_of_hasByte (hb : r.hasByte = true) :
    r.toBits = Bits.ofNat 8 r.firstByte.toNat ++ r.dropByte.toBits := by
  have h8 := hasByte_iff.1 hb
  have hs := h.size_le
  unfold toBits
  rw [toNat_firstByte h8 (by omega) h.bits_lt, toNat_size_dropByte h8,
    toNat_bits_dropByte h8 (by omega), Bits.ofNat_mod, ← Bits.ofNat_add]
  congr 1
  omega

theorem WellFormed.dropByte (hb : r.hasByte = true) : r.dropByte.WellFormed := by
  have h8 := hasByte_iff.1 hb
  have hs := h.size_le
  have he := h.size_even
  refine ⟨?_, ?_, ?_⟩
  · rw [toNat_size_dropByte h8]
    omega
  · rw [toNat_size_dropByte h8]
    omega
  · rw [toNat_size_dropByte h8, toNat_bits_dropByte h8 (by omega)]
    exact Nat.mod_lt _ (Nat.two_pow_pos _)

omit h in
theorem toBits_dropPartial (r : Reservoir) :
    r.dropPartial.toBits = r.toBits.take (8 * (r.size.toNat / 8)) := by
  have hsplit : r.size.toNat = 8 * (r.size.toNat / 8) + r.size.toNat % 8 := by omega
  have hsub : r.size.toNat - r.size.toNat % 8 = 8 * (r.size.toNat / 8) := by omega
  unfold toBits
  rw [toNat_size_dropPartial, toNat_bits_dropPartial, hsub]
  conv_rhs => rw [hsplit, Bits.ofNat_add]
  rw [List.take_left' (by rw [Bits.length_ofNat]; omega)]

theorem WellFormed.dropPartial : r.dropPartial.WellFormed := by
  have hs := h.size_le
  have he := h.size_even
  refine ⟨?_, ?_, ?_⟩
  · rw [toNat_size_dropPartial]
    omega
  · rw [toNat_size_dropPartial]
    omega
  · rw [toNat_size_dropPartial, toNat_bits_dropPartial]
    apply Nat.div_lt_of_lt_mul
    rw [← Nat.pow_add, Nat.add_sub_cancel' (Nat.mod_le _ _)]
    exact h.bits_lt

end Steps

/-! ## Draining -/

/-- What draining a reservoir into a buffer may come to. -/
structure Drained (r : Reservoir) (written : Array UInt8) (result : Reservoir × Sink) : Prop where
  /-- The reservoir stays in order. -/
  wellFormed : result.1.WellFormed
  /-- Bits change places, but none is lost and none is made. -/
  bits : Bits.ofBytes result.2.written.toList ++ result.1.toBits =
    Bits.ofBytes written.toList ++ r.toBits
  /-- A byte waits only if the buffer is full. -/
  room : result.1.hasByte = true → result.2.room = []

theorem drained {r : Reservoir} (h : r.WellFormed) (written : Array UInt8) (room : Bytes) :
    Drained r written (r.drain written room) := by
  induction room generalizing r written with
  | nil => exact ⟨h, rfl, fun _ => rfl⟩
  | cons old room ih =>
    unfold Reservoir.drain
    by_cases hb : r.hasByte = true
    · rw [if_pos hb]
      have hd := ih (h.dropByte hb) (written.push r.firstByte)
      refine ⟨hd.wellFormed, ?_, hd.room⟩
      rw [hd.bits, toBits_of_hasByte h hb, Array.toList_push, Bits.ofBytes_append,
        Bits.ofBytes_singleton, List.append_assoc]
    · rw [if_neg hb]
      exact ⟨h, rfl, fun hb' => absurd hb' hb⟩

/-- A byte takes eight bits from the reservoir. -/
theorem Drained.size {r : Reservoir} {written : Array UInt8} {result : Reservoir × Sink}
    (h : Drained r written result) :
    8 * result.2.count + result.1.size.toNat = 8 * written.size + r.size.toNat := by
  have hlength := congrArg List.length h.bits
  rw [List.length_append, List.length_append, Bits.length_ofBytes, Bits.length_ofBytes,
    length_toBits, length_toBits] at hlength
  exact hlength

/-- If no byte waits any more, then all whole bytes have been written. -/
theorem append_drain {r : Reservoir} (h : r.WellFormed) (out buffer : Bytes)
    (hb : (r.drain #[] buffer).1.hasByte = false) :
    out ++ (r.drain #[] buffer).2.written.toList = Bits.pack (Bits.ofBytes out ++ r.toBits) := by
  have hbits := (drained h #[] buffer).bits
  rw [List.toList_toArray, Bits.ofBytes_nil, List.nil_append] at hbits
  rw [← hbits, ← List.append_assoc, ← Bits.ofBytes_append, Bits.pack_append,
    Bits.pack_of_length_lt (length_toBits_lt hb), List.append_nil]

/-- Room for one byte is enough, since at most one waits. -/
theorem not_hasByte_drain {r : Reservoir} (h : r.WellFormed) (written : Array UInt8) {room : Bytes}
    (hroom : room ≠ []) : (r.drain written room).1.hasByte = false := by
  cases room with
  | nil => exact absurd rfl hroom
  | cons old room =>
    unfold Reservoir.drain
    by_cases hb : r.hasByte = true
    · rw [if_pos hb]
      have h8 := hasByte_iff.1 hb
      have hs := h.size_le
      have hstop : r.dropByte.hasByte = false := by
        rw [← Bool.not_eq_true, hasByte_iff, toNat_size_dropByte h8]
        omega
      cases room with
      | nil => exact hstop
      | cons _ _ =>
        unfold Reservoir.drain
        rw [if_neg (by rw [hstop]; decide)]
        exact hstop
    · rw [if_neg hb]
      exact Bool.not_eq_true _ ▸ hb

theorem room_eq_nil_of_hasByte_drain {r : Reservoir} (h : r.WellFormed) {written : Array UInt8}
    {room : Bytes} (hb : (r.drain written room).1.hasByte = true) : room = [] := by
  by_contra hroom
  rw [not_hasByte_drain h written hroom] at hb
  cases hb

theorem hasByte_dropPartial (r : Reservoir) : r.dropPartial.hasByte = r.hasByte := by
  rw [Bool.eq_iff_iff, hasByte_iff, hasByte_iff, toNat_size_dropPartial]
  omega

/-! ## Draining without leftovers -/

/-- A reservoir in order is determined by its bits. -/
theorem eq_of_toBits {r s : Reservoir} (hr : r.WellFormed) (hs : s.WellFormed)
    (h : r.toBits = s.toBits) : r = s := by
  have hsize : r.size.toNat = s.size.toNat := by
    rw [← length_toBits, h, length_toBits]
  have hbits : r.bits.toNat = s.bits.toNat := by
    unfold toBits at h
    rw [hsize] at h
    exact Bits.eq_of_ofNat (hsize ▸ hr.bits_lt) hs.bits_lt h
  cases r
  cases s
  rw [Reservoir.mk.injEq]
  exact ⟨UInt32.toNat_inj.1 hbits, UInt8.toNat_inj.1 hsize⟩

theorem dropPartial_of_mod {r : Reservoir} (h : r.WellFormed) (hmod : r.size.toNat % 8 = 0) :
    r.dropPartial = r := by
  apply eq_of_toBits h.dropPartial h
  rw [toBits_dropPartial, List.take_of_length_le]
  rw [length_toBits]
  omega

theorem dropPartial_dropPartial {r : Reservoir} (h : r.WellFormed) :
    r.dropPartial.dropPartial = r.dropPartial := by
  apply dropPartial_of_mod h.dropPartial
  rw [toNat_size_dropPartial]
  omega

section Leftovers

variable {r : Reservoir} (h : r.WellFormed) (hb : r.hasByte = true)

include h hb

/-- Leftovers stand behind the whole bytes. -/
theorem toBits_dropPartial_of_hasByte :
    Bits.ofNat 8 r.dropPartial.firstByte.toNat ++ r.dropPartial.dropByte.toBits =
      Bits.ofNat 8 r.firstByte.toNat ++ r.dropByte.dropPartial.toBits := by
  have hb' : r.dropPartial.hasByte = true := (hasByte_dropPartial r).trans hb
  have h8 := hasByte_iff.1 hb
  have hsplit : 8 * (r.size.toNat / 8) = 8 + 8 * (r.dropByte.size.toNat / 8) := by
    rw [toNat_size_dropByte h8]
    omega
  have htake : (Bits.ofNat 8 r.firstByte.toNat ++ r.dropByte.toBits).take
      ((Bits.ofNat 8 r.firstByte.toNat).length + 8 * (r.dropByte.size.toNat / 8)) = _ :=
    List.take_length_add_append _
  rw [Bits.length_ofNat] at htake
  rw [← toBits_of_hasByte h.dropPartial hb', toBits_dropPartial, toBits_of_hasByte h hb, hsplit,
    toBits_dropPartial, htake]

theorem firstByte_dropPartial : r.dropPartial.firstByte = r.firstByte := by
  have hbits := List.append_inj_left (toBits_dropPartial_of_hasByte h hb) (by simp)
  exact UInt8.toNat_inj.1 (Bits.eq_of_ofNat (UInt8.toNat_lt _) (UInt8.toNat_lt _) hbits)

theorem dropByte_dropPartial : r.dropPartial.dropByte = r.dropByte.dropPartial := by
  have hb' : r.dropPartial.hasByte = true := (hasByte_dropPartial r).trans hb
  apply eq_of_toBits (h.dropPartial.dropByte hb') (h.dropByte hb).dropPartial
  exact List.append_inj_right (toBits_dropPartial_of_hasByte h hb) (by simp)

end Leftovers

/-- Draining moves whole bytes only, so it does not matter whether leftovers are dropped before it
or after. -/
theorem drain_dropPartial {r : Reservoir} (h : r.WellFormed) (written : Array UInt8)
    (room : Bytes) :
    r.dropPartial.drain written room =
      ((r.drain written room).1.dropPartial, (r.drain written room).2) := by
  induction room generalizing r written with
  | nil => rfl
  | cons old room ih =>
    unfold Reservoir.drain
    rw [hasByte_dropPartial]
    by_cases hb : r.hasByte = true
    · rw [if_pos hb, if_pos hb, firstByte_dropPartial h hb, dropByte_dropPartial h hb]
      exact ih (h.dropByte hb) (written.push r.firstByte)
    · rw [if_neg hb, if_neg hb]

end Reservoir

end TextCodec.Base64
