import Mathlib.Algebra.Ring.Nat
import Mathlib.Data.List.Induction
import TextCodec.Text.Bytes

/-!
# Bytes as bits

A byte string as the list of its bits, the highest bit of each byte first, and the way back.
`pack` reads whole groups of eight bits; bits that are left over make no byte. `pack_append` says
that packing undoes writing the bits out.
-/

namespace TextCodec.Bits

/-! ## Bits of a number -/

/-- The lowest `width` bits of `n`, the highest one first. -/
def ofNat : (width n : Nat) → List Bool
  | 0, _ => []
  | width + 1, n => ofNat width (n / 2) ++ [n % 2 == 1]

@[simp] theorem length_ofNat (width n : Nat) : (ofNat width n).length = width := by
  induction width generalizing n with
  | zero => rfl
  | succ width ih => rw [ofNat, List.length_append, ih]; rfl

/-- Bits split where the number is divided. -/
theorem ofNat_add (m k n : Nat) : ofNat (m + k) n = ofNat m (n / 2 ^ k) ++ ofNat k n := by
  induction k generalizing n with
  | zero => simp [ofNat]
  | succ k ih =>
    show ofNat (m + k) (n / 2) ++ [n % 2 == 1] = _
    rw [ih, Nat.div_div_eq_div_mul, ← Nat.pow_succ', List.append_assoc]
    rfl

/-- Only the lowest `width` bits count. -/
theorem ofNat_mod (width n : Nat) : ofNat width (n % 2 ^ width) = ofNat width n := by
  induction width generalizing n with
  | zero => rfl
  | succ width ih =>
    have hdiv : n % 2 ^ (width + 1) / 2 = n / 2 % 2 ^ width := by
      rw [Nat.pow_succ', Nat.mod_mul, Nat.add_mul_div_left _ _ (by decide)]
      omega
    have hmod : n % 2 ^ (width + 1) % 2 = n % 2 :=
      Nat.mod_mod_of_dvd n (Nat.pow_succ' ▸ Nat.dvd_mul_right 2 _)
    rw [ofNat, ofNat, hdiv, hmod, ih]

/-- A number that is put together from two parts has the bits of both. -/
theorem ofNat_mul_add (m k n : Nat) {v : Nat} (h : v < 2 ^ k) :
    ofNat (m + k) (n * 2 ^ k + v) = ofNat m n ++ ofNat k v := by
  have hpos := Nat.two_pow_pos k
  have hdiv : (n * 2 ^ k + v) / 2 ^ k = n := by
    rw [Nat.mul_comm, Nat.mul_add_div hpos, Nat.div_eq_of_lt h, Nat.add_zero]
  rw [ofNat_add, hdiv, ← ofNat_mod k (n * 2 ^ k + v), Nat.mul_add_mod_self_right,
    Nat.mod_eq_of_lt h]

/-- The number that bits denote, the highest one first. -/
def toNat (bits : List Bool) : Nat := bits.foldl (fun n b => 2 * n + b.toNat) 0

theorem toNat_append_singleton (bits : List Bool) (b : Bool) :
    toNat (bits ++ [b]) = 2 * toNat bits + b.toNat := by
  simp [toNat]

theorem toNat_ofNat (width n : Nat) : toNat (ofNat width n) = n % 2 ^ width := by
  induction width generalizing n with
  | zero => simp [ofNat, toNat, Nat.mod_one]
  | succ width ih =>
    have hb : (n % 2 == 1).toNat = n % 2 := by
      rcases Nat.mod_two_eq_zero_or_one n with h | h <;> rw [h] <;> rfl
    rw [ofNat, toNat_append_singleton, ih, hb, Nat.pow_succ', Nat.mod_mul]
    omega

theorem length_flatMap_ofNat (width : Nat) (values : List Nat) :
    (values.flatMap (ofNat width)).length = width * values.length := by
  induction values with
  | nil => rfl
  | cons v values ih =>
    rw [List.flatMap_cons, List.length_append, length_ofNat, ih, List.length_cons, Nat.mul_succ,
      Nat.add_comm]

/-- A number is determined by its bits. -/
theorem eq_of_ofNat {width m n : Nat} (hm : m < 2 ^ width) (hn : n < 2 ^ width)
    (h : ofNat width m = ofNat width n) : m = n := by
  have hnat := congrArg toNat h
  rwa [toNat_ofNat, toNat_ofNat, Nat.mod_eq_of_lt hm, Nat.mod_eq_of_lt hn] at hnat

/-- Bits are those of the number that they denote. -/
theorem ofNat_toNat (bits : List Bool) : ofNat bits.length (toNat bits) = bits := by
  induction bits using List.reverseRecOn with
  | nil => rfl
  | append_singleton bits b ih =>
    have hb : b.toNat ≤ 1 := Bool.toNat_le b
    have hdiv : (2 * toNat bits + b.toNat) / 2 = toNat bits := by omega
    have hmod : (2 * toNat bits + b.toNat) % 2 = b.toNat := by omega
    have hlast : (b.toNat == 1) = b := by cases b <;> rfl
    rw [List.length_append, List.length_singleton, ofNat, toNat_append_singleton, hdiv, hmod, ih,
      hlast]

/-! ## Bytes -/

/-- The bits of a byte string. -/
def ofBytes (bytes : Bytes) : List Bool := bytes.flatMap fun b => ofNat 8 b.toNat

@[simp] theorem ofBytes_nil : ofBytes [] = [] := rfl

theorem ofBytes_cons (b : UInt8) (bytes : Bytes) :
    ofBytes (b :: bytes) = ofNat 8 b.toNat ++ ofBytes bytes := rfl

@[simp] theorem ofBytes_append (a b : Bytes) : ofBytes (a ++ b) = ofBytes a ++ ofBytes b :=
  List.flatMap_append

@[simp] theorem ofBytes_singleton (b : UInt8) : ofBytes [b] = ofNat 8 b.toNat := by
  rw [ofBytes_cons, ofBytes_nil, List.append_nil]

@[simp] theorem length_ofBytes (bytes : Bytes) : (ofBytes bytes).length = 8 * bytes.length := by
  induction bytes with
  | nil => rfl
  | cons b bytes ih =>
    rw [ofBytes_cons, List.length_append, length_ofNat, ih, List.length_cons]
    omega

/-- The bytes whose bits are given, eight bits a byte. Up to seven bits are left over. -/
def pack : List Bool → Bytes
  | b₇ :: b₆ :: b₅ :: b₄ :: b₃ :: b₂ :: b₁ :: b₀ :: rest =>
    UInt8.ofNat (toNat [b₇, b₆, b₅, b₄, b₃, b₂, b₁, b₀]) :: pack rest
  | _ => []

theorem length_pack (bits : List Bool) : (pack bits).length = bits.length / 8 := by
  induction bits using pack.induct with
  | case1 b₇ b₆ b₅ b₄ b₃ b₂ b₁ b₀ rest ih =>
    simp only [pack, List.length_cons, ih]
    omega
  | case2 bits h =>
    match bits with
    | [] | [_] | [_, _] | [_, _, _] | [_, _, _, _] | [_, _, _, _, _] | [_, _, _, _, _, _]
    | [_, _, _, _, _, _, _] => simp [pack]
    | b₇ :: b₆ :: b₅ :: b₄ :: b₃ :: b₂ :: b₁ :: b₀ :: rest =>
      exact absurd rfl (h b₇ b₆ b₅ b₄ b₃ b₂ b₁ b₀ rest)

theorem pack_of_length_lt {bits : List Bool} (h : bits.length < 8) : pack bits = [] := by
  apply List.eq_nil_of_length_eq_zero
  rw [length_pack, Nat.div_eq_of_lt h]

theorem pack_ofNat_append (b : UInt8) (rest : List Bool) :
    pack (ofNat 8 b.toNat ++ rest) = b :: pack rest := by
  show UInt8.ofNat (toNat (ofNat 8 b.toNat)) :: pack rest = _
  rw [toNat_ofNat, Nat.mod_eq_of_lt b.toNat_lt, UInt8.ofNat_toNat]

theorem pack_append (bytes : Bytes) (rest : List Bool) :
    pack (ofBytes bytes ++ rest) = bytes ++ pack rest := by
  induction bytes with
  | nil => rfl
  | cons b bytes ih =>
    rw [ofBytes_cons, List.append_assoc, pack_ofNat_append, ih, List.cons_append]

/-- Packing keeps the bits that make whole bytes. -/
theorem ofBytes_pack (bits : List Bool) :
    ofBytes (pack bits) = bits.take (8 * (bits.length / 8)) := by
  induction bits using pack.induct with
  | case1 b₇ b₆ b₅ b₄ b₃ b₂ b₁ b₀ rest ih =>
    have hlen : 8 * ((b₇ :: b₆ :: b₅ :: b₄ :: b₃ :: b₂ :: b₁ :: b₀ :: rest).length / 8) =
        8 * (rest.length / 8) + 8 := by
      simp only [List.length_cons]
      omega
    have hfirst := ofNat_toNat [b₇, b₆, b₅, b₄, b₃, b₂, b₁, b₀]
    rw [hlen, pack, ofBytes_cons, UInt8.toNat_ofNat', ofNat_mod, ih]
    exact congrArg (· ++ _) hfirst
  | case2 bits h =>
    have hlt : bits.length < 8 := by
      have hl := length_pack bits
      rw [pack.eq_2 bits h] at hl
      simp only [List.length_nil] at hl
      omega
    rw [pack_of_length_lt hlt, Nat.div_eq_of_lt hlt]
    rfl

/-- Leftovers beyond whole bytes do not count. -/
theorem pack_take (bits : List Bool) : pack (bits.take (8 * (bits.length / 8))) = pack bits := by
  have hpack := pack_append (pack bits) []
  rw [List.append_nil, ofBytes_pack] at hpack
  exact hpack.trans (List.append_nil _)

/-- The whole bytes of a byte string with bits after it. -/
theorem take_ofBytes_append (bytes : Bytes) (rest : List Bool) :
    (ofBytes bytes ++ rest).take (8 * ((ofBytes bytes ++ rest).length / 8)) =
      ofBytes bytes ++ rest.take (8 * (rest.length / 8)) := by
  have hlen : 8 * ((ofBytes bytes ++ rest).length / 8) =
      (ofBytes bytes).length + 8 * (rest.length / 8) := by
    rw [List.length_append, length_ofBytes]
    omega
  rw [hlen, List.take_length_add_append]

end TextCodec.Bits
