import TextCodec.Proofs.Base64.Language
import TextCodec.Proofs.Base64.Lockstep

/-!
# Symmetry of the alphabets

The alphabets differ in their last two symbols: `+` and `/` in one of them, `-` and `_` in the
other. `exchange` swaps these bytes, which takes the symbols of one alphabet to those of the other
(`Alphabet.symbols_other`) and leaves blanks and `=` where they are. So a decoder reads an exchanged
text in the other alphabet exactly as it reads the text (`views_exchange`), its failures included.
-/

namespace TextCodec.Base64

/-- The symbols in which the alphabets differ. -/
def exchanged : Bytes := ['+'.toUInt8, '-'.toUInt8, '/'.toUInt8, '_'.toUInt8]

/-- Swaps the symbols in which the alphabets differ. -/
def exchange (b : UInt8) : UInt8 :=
  if b = '+'.toUInt8 then '-'.toUInt8
  else if b = '-'.toUInt8 then '+'.toUInt8
  else if b = '/'.toUInt8 then '_'.toUInt8
  else if b = '_'.toUInt8 then '/'.toUInt8
  else b

theorem exchange_of_not_mem {b : UInt8} (h : b ∉ exchanged) : exchange b = b := by
  simp only [exchanged, List.mem_cons, List.not_mem_nil, or_false, not_or] at h
  obtain ⟨h1, h2, h3, h4⟩ := h
  unfold exchange
  rw [if_neg h1, if_neg h2, if_neg h3, if_neg h4]

theorem exchange_exchange (b : UInt8) : exchange (exchange b) = b := by
  have hall : ∀ c ∈ exchanged, exchange (exchange c) = c := by decide +kernel
  by_cases hb : b ∈ exchanged
  · exact hall b hb
  · rw [exchange_of_not_mem hb, exchange_of_not_mem hb]

theorem exchange_inj {b c : UInt8} : exchange b = exchange c ↔ b = c :=
  ⟨fun h => by rw [← exchange_exchange b, h, exchange_exchange], congrArg exchange⟩

theorem exchange_eq_pad_iff {b : UInt8} : exchange b = pad ↔ b = pad := by
  have hpad : exchange pad = pad := by decide
  rw [← exchange_inj, exchange_exchange, hpad]

theorem isBlank_exchange (b : UInt8) : isBlank (exchange b) = isBlank b := by
  have hall : ∀ c ∈ exchanged, isBlank (exchange c) = isBlank c := by decide +kernel
  by_cases hb : b ∈ exchanged
  · exact hall b hb
  · rw [exchange_of_not_mem hb]

namespace Alphabet

/-- The other alphabet. -/
def other : Alphabet → Alphabet
  | basic => url
  | url => basic

theorem symbols_other (a : Alphabet) : a.other.symbols = a.symbols.map exchange := by
  cases a <;> decide +kernel

theorem value?_exchange (a : Alphabet) (b : UInt8) :
    a.other.value? (exchange b) = a.value? b := by
  have hsame : (fun c => c == exchange b) ∘ exchange = fun c => c == b := by
    funext c
    rw [Bool.eq_iff_iff, Function.comp_apply, beq_iff_eq, beq_iff_eq, exchange_inj]
  unfold value? List.idxOf?
  rw [symbols_other, List.findIdx?_map, hsame]

theorem isForeign_exchange (a : Alphabet) (b : UInt8) :
    a.other.isForeign (exchange b) = a.isForeign b := by
  rw [Bool.eq_iff_iff, isForeign_iff, isForeign_iff, ← value?_eq_none_iff, ← value?_eq_none_iff,
    value?_exchange, Ne, exchange_eq_pad_iff]

end Alphabet

namespace Options

/-- The same options with the other alphabet. -/
def withOtherAlphabet (o : Options) : Options := { o with alphabet := o.alphabet.other }

theorem skips_exchange (o : Options) (b : UInt8) :
    o.withOtherAlphabet.skips (exchange b) = o.skips b := by
  unfold skips withOtherAlphabet
  rw [isBlank_exchange, Alphabet.isForeign_exchange]

/-- Exchanged bytes are read in the other alphabet as the bytes themselves are. -/
theorem follows_exchange (o : Options) : Follows True exchange o o.withOtherAlphabet where
  value? := o.alphabet.value?_exchange
  pad_iff := exchange_eq_pad_iff
  isPadded := rfl
  skips _ := o.skips_exchange _
  requiresPadding _ := rfl

end Options

/-- **Symmetry of the alphabets.** In any session, a new decoder for the other alphabet that is fed
with exchanged texts answers as a new decoder that is fed with the texts themselves. Where that
names a byte in an error, it names the exchanged one. -/
theorem views_exchange (o : Options) (calls : List Call) :
    (Decoder.new o.withOtherAlphabet).views (calls.map (.translate exchange)) =
      ((Decoder.new o).views calls).map (.translate exchange) :=
  o.follows_exchange.views_eq (d := .new o) rfl calls (Or.inl trivial)

/-- `-` is foreign to one alphabet, and `+` to the other. -/
example :
    ((Decoder.new { alphabet := .basic }).convert [] [0x2B, 0x2D]).result =
        .error (.unrecognizedCharacter 0x2D) ∧
      ((Decoder.new { alphabet := .url }).convert [] [0x2D, 0x2B]).result =
        .error (.unrecognizedCharacter 0x2B) := by
  decide +kernel

end TextCodec.Base64
