import TextCodec.Text.Bytes
/-!
# Alphabets

Each of the two alphabets has 64 symbols, one for every group of six bits. They differ in the last
two.
-/

namespace TextCodec.Base64

/-- A set of 64 symbols. -/
inductive Alphabet where
  /-- The last symbols are `+` and `/`. -/
  | basic
  /-- The last symbols are `-` and `_`, which are safe in addresses and file names. -/
  | url
deriving DecidableEq, Repr

instance : Inhabited Alphabet := ⟨.basic⟩

/-- The byte that fills up the last group. -/
def pad : UInt8 := '='.toUInt8

/-- The six blanks of ASCII: tab, line feed, vertical tab, form feed, carriage return and space. -/
def isBlank (b : UInt8) : Bool := (0x09 ≤ b.toNat && b.toNat ≤ 0x0D) || b.toNat == 0x20

namespace Alphabet

/-- The symbols in the order of their values. -/
def symbols : Alphabet → Bytes
  | basic =>
    "ABCDEFGHIJKLMNOPQRSTUVWXYZabcdefghijklmnopqrstuvwxyz0123456789+/".toList.map Char.toUInt8
  | url =>
    "ABCDEFGHIJKLMNOPQRSTUVWXYZabcdefghijklmnopqrstuvwxyz0123456789-_".toList.map Char.toUInt8

/-- The symbol of a value below 64. -/
def symbol (a : Alphabet) (v : Nat) : UInt8 := a.symbols.getD v pad

/-- The value of a symbol. Other bytes have none. -/
def value? (a : Alphabet) (b : UInt8) : Option Nat := a.symbols.idxOf? b

theorem length_symbols (a : Alphabet) : a.symbols.length = 64 := by
  cases a <;> decide

theorem value?_symbol (a : Alphabet) {v : Nat} (h : v < 64) : a.value? (a.symbol v) = some v := by
  have hall : ∀ v < 64, a.value? (a.symbol v) = some v := by
    cases a <;> decide +kernel
  exact hall v h

theorem value?_eq_some_iff {a : Alphabet} {b : UInt8} {v : Nat} :
    a.value? b = some v ↔ v < 64 ∧ a.symbol v = b := by
  constructor
  · intro h
    obtain ⟨hv, hb, -⟩ := List.idxOf?_eq_some_iff.1 h
    rw [length_symbols] at hv
    refine ⟨hv, ?_⟩
    rw [symbol, List.getD_eq_getElem?_getD, List.getElem?_eq_getElem]
    exact hb
  · rintro ⟨hv, rfl⟩
    exact a.value?_symbol hv

theorem value?_pad (a : Alphabet) : a.value? pad = none := by
  cases a <;> decide +kernel

/-- Whether a byte is neither a symbol nor padding. -/
def isForeign (a : Alphabet) (b : UInt8) : Bool := (a.value? b).isNone && b != pad

/-! ## Tables -/

def allBytes : Bytes := (List.range 256).map UInt8.ofNat

def noValue : UInt8 := 0xFF

def valueTable (a : Alphabet) : Bytes :=
  allBytes.map fun b => ((a.value? b).map UInt8.ofNat).getD noValue

def foreignTable (a : Alphabet) : List Bool := allBytes.map a.isForeign

def blankTable : List Bool := allBytes.map isBlank

end Alphabet

end TextCodec.Base64
