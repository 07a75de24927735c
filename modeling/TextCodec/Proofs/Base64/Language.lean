import TextCodec.Proofs.Base64.Schedule

/-!
# Which texts are encodings

`Encodes o text values` is the grammar of encoded text: without the bytes that are skipped, the text
is a row of symbols with these values, followed by the padding that may close a row of that length.
A decoder with enough room accepts exactly these texts and decodes them to the whole bytes of the
bits of the values.

Reading a text and writing out the content that was read are inverse, up to the bytes that are
skipped: `Content.row_of_scan` goes from the text to its content, and `Content.scan_symbols` with
`Content.scan_padding` from the content to the text.
-/

namespace TextCodec.Base64

/-! ## The grammar -/

/-- The bytes that are skipped: the six blanks, or all bytes that are neither symbols nor `=`. -/
def Ignorable (o : Options) (b : UInt8) : Prop :=
  if o.isStrict then b ∈ [0x09, 0x0A, 0x0B, 0x0C, 0x0D, 0x20]
  else b ∉ o.alphabet.symbols ∧ b ≠ pad

instance (o : Options) : DecidablePred (Ignorable o) := fun b => by
  unfold Ignorable
  infer_instance

/-- A text without the bytes that are skipped. -/
def significant (o : Options) (text : Bytes) : Bytes := text.filter fun b => ¬Ignorable o b

/-- The padding that may follow `n` symbols. -/
def MayClose (o : Options) (n : Nat) (padding : Bytes) : Prop :=
  if o.isPadded then
    padding = [] ∧ n % 4 = 0 ∨ padding = [pad, pad] ∧ n % 4 = 2 ∨ padding = [pad] ∧ n % 4 = 3 ∨
      o.isStrict = false ∧ padding = [] ∧ (n % 4 = 2 ∨ n % 4 = 3)
  else padding = [] ∧ n % 4 ≠ 1

/-- The text is an encoding whose symbols have these values. -/
structure Encodes (o : Options) (text : Bytes) (values : List Nat) : Prop where
  values_lt : ∀ v ∈ values, v < 64
  row : ∃ padding, significant o text = values.map o.alphabet.symbol ++ padding ∧
    MayClose o values.length padding

/-! ## Bytes that are skipped -/

theorem isBlank_iff {b : UInt8} : isBlank b = true ↔ b ∈ [0x09, 0x0A, 0x0B, 0x0C, 0x0D, 0x20] := by
  simp only [isBlank, Bool.or_eq_true, Bool.and_eq_true, decide_eq_true_eq, beq_iff_eq,
    List.mem_cons, List.not_mem_nil, or_false, ← UInt8.toNat_inj]
  simp only [UInt8.reduceToNat]
  omega

theorem Alphabet.value?_eq_none_iff {a : Alphabet} {b : UInt8} :
    a.value? b = none ↔ b ∉ a.symbols :=
  List.idxOf?_eq_none_iff

theorem Alphabet.isForeign_iff {a : Alphabet} {b : UInt8} :
    a.isForeign b = true ↔ b ∉ a.symbols ∧ b ≠ pad := by
  unfold isForeign
  rw [Bool.and_eq_true, Option.isNone_iff_eq_none, value?_eq_none_iff, bne_iff_ne]

theorem skips_iff {o : Options} {b : UInt8} : o.skips b = true ↔ Ignorable o b := by
  unfold Options.skips Ignorable
  split_ifs
  · exact isBlank_iff
  · exact Alphabet.isForeign_iff

theorem Alphabet.value?_of_isBlank (a : Alphabet) {b : UInt8} (h : isBlank b = true) :
    a.value? b = none := by
  have hall : ∀ b ∈ ([0x09, 0x0A, 0x0B, 0x0C, 0x0D, 0x20] : Bytes), a.value? b = none := by
    cases a <;> decide +kernel
  exact hall b (isBlank_iff.1 h)

theorem Options.value?_of_skips {o : Options} {b : UInt8} (h : o.skips b = true) :
    o.alphabet.value? b = none := by
  unfold skips at h
  split_ifs at h
  · exact o.alphabet.value?_of_isBlank h
  · exact Alphabet.value?_eq_none_iff.2 (Alphabet.isForeign_iff.1 h).1

theorem significant_cons_of_skips {o : Options} {b : UInt8} (h : o.skips b = true) (text : Bytes) :
    significant o (b :: text) = significant o text := by
  unfold significant
  rw [List.filter_cons, if_neg (by simpa using skips_iff.1 h)]

theorem significant_cons_of_not_skips {o : Options} {b : UInt8} (h : o.skips b ≠ true)
    (text : Bytes) : significant o (b :: text) = b :: significant o text := by
  unfold significant
  rw [List.filter_cons, if_pos (by simpa using skips_iff.not.1 h)]

namespace Content

/-! ## From the text to its content -/

/-- The content as a text: its symbols, and then its padding. -/
def row (o : Options) (c : Content) : Bytes :=
  c.values.map o.alphabet.symbol ++ List.replicate c.pads pad

/-- What holds of every content that a text can have. -/
structure Proper (o : Options) (c : Content) : Prop where
  values_lt : ∀ v ∈ c.values, v < 64
  pads : c.pads = 0 ∨ o.isPadded = true ∧
    (c.pads = 1 ∧ (c.lastGroup = 2 ∨ c.lastGroup = 3) ∨ c.pads = 2 ∧ c.lastGroup = 2)

theorem proper_empty (o : Options) : Proper o {} := ⟨by simp, Or.inl rfl⟩

section Take

variable {o : Options} {c d : Content} {b : UInt8}

theorem take_of_skips (h : o.skips b = true) (c : Content) : c.take o b = .ok c := by
  have hpad : b ≠ pad := by
    rintro rfl
    rw [o.not_skips_pad] at h
    cases h
  unfold take
  rw [o.value?_of_skips h]
  simp only [if_neg hpad, if_pos h]

/-- A byte that is read and not skipped is a symbol before all padding, or padding. -/
theorem take_cases (h : c.take o b = .ok d) (hs : o.skips b ≠ true) :
    (∃ v, o.alphabet.value? b = some v ∧ c.pads = 0 ∧ d = c.addSymbol v) ∨
      b = pad ∧ o.isPadded = true ∧ c.AwaitsPad ∧ d = c.addPad := by
  unfold take at h
  cases hv : o.alphabet.value? b with
  | some v =>
    rw [hv] at h
    simp only at h
    split_ifs at h with hp
    cases h
    exact Or.inl ⟨v, rfl, hp, rfl⟩
  | none =>
    rw [hv] at h
    simp only [if_neg hs] at h
    split_ifs at h with hpad ha
    cases h
    exact Or.inr ⟨hpad, ha.1, ha.2, rfl⟩

theorem row_of_take (h : c.take o b = .ok d) (hs : o.skips b ≠ true) :
    d.row o = c.row o ++ [b] := by
  unfold row
  rcases take_cases h hs with ⟨v, hv, hp, rfl⟩ | ⟨rfl, -, -, rfl⟩
  · have hb := (Alphabet.value?_eq_some_iff.1 hv).2
    simp [addSymbol, hp, hb]
  · rw [addPad, List.append_assoc, List.replicate_succ']

theorem Proper.take (hc : c.Proper o) (h : c.take o b = .ok d) : d.Proper o := by
  by_cases hs : o.skips b = true
  · rw [take_of_skips hs] at h
    cases h
    exact hc
  · rcases take_cases h hs with ⟨v, hv, hp, rfl⟩ | ⟨-, hpadded, ha, rfl⟩
    · refine ⟨?_, Or.inl hp⟩
      intro w hw
      rcases List.mem_append.1 hw with hw | hw
      · exact hc.values_lt w hw
      · rw [List.mem_singleton.1 hw]
        exact (Alphabet.value?_eq_some_iff.1 hv).1
    · refine ⟨hc.values_lt, Or.inr ⟨hpadded, ?_⟩⟩
      rcases ha with ⟨hp, hl⟩ | ⟨hp, hl⟩
      · exact Or.inl ⟨congrArg (· + 1) hp, hl⟩
      · exact Or.inr ⟨congrArg (· + 1) hp, hl⟩

/-- The content of a text, written out, is the text without the bytes that are skipped. -/
theorem row_of_scan {text : Bytes} (h : c.scan o text = (d, none)) :
    d.row o = c.row o ++ significant o text := by
  induction text generalizing c with
  | nil =>
    cases h
    exact (List.append_nil _).symm
  | cons b text ih =>
    cases hb : c.take o b with
    | error e =>
      rw [scan_cons_of_error hb] at h
      cases h
    | ok c' =>
      rw [scan_cons_of_ok hb] at h
      rw [ih h]
      by_cases hs : o.skips b = true
      · rw [take_of_skips hs] at hb
        cases hb
        rw [significant_cons_of_skips hs]
      · rw [row_of_take hb hs, significant_cons_of_not_skips hs, List.append_assoc]
        rfl

theorem Proper.scan {text : Bytes} (hc : c.Proper o) (h : c.scan o text = (d, none)) :
    d.Proper o := by
  induction text generalizing c with
  | nil =>
    cases h
    exact hc
  | cons b text ih =>
    cases hb : c.take o b with
    | error e =>
      rw [scan_cons_of_error hb] at h
      cases h
    | ok c' =>
      rw [scan_cons_of_ok hb] at h
      exact ih (hc.take hb) h

/-- A text may end exactly where its padding closes the row of its symbols. -/
theorem Proper.ending?_eq_none_iff (hc : c.Proper o) :
    c.ending? o = none ↔ MayClose o c.values.length (List.replicate c.pads pad) := by
  have hl : c.lastGroup = c.values.length % 4 := rfl
  have hlt := c.lastGroup_lt
  unfold ending? Options.requiresPadding MayClose
  rw [hl] at hlt ⊢
  rcases hc.pads with hp | ⟨hpadded, ⟨hp, hl2 | hl3⟩ | ⟨hp, hl2⟩⟩
  · by_cases h1 : c.values.length % 4 = 1
    · cases o.isPadded <;> cases o.isStrict <;> simp [hp, h1]
    · cases o.isPadded <;> cases o.isStrict <;> simp [hp, h1]
      omega
  · simp [hp, hpadded, ← hl, hl2]
  · simp [hp, hpadded, ← hl, hl3]
  · simp [hp, hpadded, ← hl, hl2]

/-! ## From the content to the text -/

/-- Bytes that are skipped make no difference. -/
theorem scan_significant (c : Content) (text : Bytes) :
    c.scan o (significant o text) = c.scan o text := by
  induction text generalizing c with
  | nil => rfl
  | cons b text ih =>
    by_cases hs : o.skips b = true
    · rw [significant_cons_of_skips hs, scan_cons_of_ok (take_of_skips hs c), ih]
    · rw [significant_cons_of_not_skips hs]
      cases hb : c.take o b with
      | error e => rw [scan_cons_of_error hb, scan_cons_of_error hb]
      | ok d => rw [scan_cons_of_ok hb, scan_cons_of_ok hb, ih]

theorem take_symbol (hp : c.pads = 0) {v : Nat} (hv : v < 64) :
    c.take o (o.alphabet.symbol v) = .ok (c.addSymbol v) := by
  unfold take
  rw [o.alphabet.value?_symbol hv]
  exact if_pos hp

theorem take_pad (hpadded : o.isPadded = true) (ha : c.AwaitsPad) :
    c.take o pad = .ok c.addPad := by
  unfold take
  rw [o.alphabet.value?_pad]
  simp [hpadded, ha]

/-- A row of symbols is read to its end. -/
theorem scan_symbols (hp : c.pads = 0) {values : List Nat} (hv : ∀ v ∈ values, v < 64) :
    c.scan o (values.map o.alphabet.symbol) = (⟨c.values ++ values, 0⟩, none) := by
  induction values generalizing c with
  | nil =>
    rw [List.append_nil, ← hp]
    rfl
  | cons v values ih =>
    rw [List.map_cons, scan_cons_of_ok (take_symbol hp (hv v List.mem_cons_self)),
      ih (c := c.addSymbol v) hp fun w hw => hv w (List.mem_cons_of_mem _ hw)]
    simp [addSymbol]

/-- The padding that closes a row is read to its end. -/
theorem scan_padding {values : List Nat} {padding : Bytes} (h : MayClose o values.length padding) :
    ∃ k, padding = List.replicate k pad ∧
      (⟨values, 0⟩ : Content).scan o padding = (⟨values, k⟩, none) := by
  unfold MayClose at h
  split_ifs at h with hpadded
  · rcases h with ⟨rfl, -⟩ | ⟨rfl, hl⟩ | ⟨rfl, hl⟩ | ⟨-, rfl, -⟩
    · exact ⟨0, rfl, rfl⟩
    · have hfirst : (⟨values, 0⟩ : Content).AwaitsPad := Or.inl ⟨rfl, Or.inl hl⟩
      have hsecond : (⟨values, 0⟩ : Content).addPad.AwaitsPad := Or.inr ⟨rfl, hl⟩
      refine ⟨2, rfl, ?_⟩
      rw [scan_cons_of_ok (take_pad hpadded hfirst), scan_cons_of_ok (take_pad hpadded hsecond)]
      rfl
    · have hfirst : (⟨values, 0⟩ : Content).AwaitsPad := Or.inl ⟨rfl, Or.inr hl⟩
      refine ⟨1, rfl, ?_⟩
      rw [scan_cons_of_ok (take_pad hpadded hfirst)]
      rfl
    · exact ⟨0, rfl, rfl⟩
  · obtain ⟨rfl, -⟩ := h
    exact ⟨0, rfl, rfl⟩

end Take

end Content

/-! ## The language -/

section Language

variable {o : Options} {text : Bytes} {values : List Nat}

/-- An encoding is read to its end, and then its row is closed. -/
theorem Encodes.scan (h : Encodes o text values) :
    ∃ k, ({} : Content).scan o text = (⟨values, k⟩, none) ∧
      (⟨values, k⟩ : Content).ending? o = none := by
  obtain ⟨padding, hrow, hclose⟩ := h.row
  obtain ⟨k, rfl, hpad⟩ := Content.scan_padding hclose
  have hscan : ({} : Content).scan o text = (⟨values, k⟩, none) := by
    rw [← Content.scan_significant, hrow,
      Content.scan_append_of_none (Content.scan_symbols rfl h.values_lt), List.nil_append, hpad]
  have hproper := (Content.proper_empty o).scan hscan
  exact ⟨k, hscan, hproper.ending?_eq_none_iff.2 hclose⟩

theorem verdict_eq_none_iff : verdict o text = none ↔ ∃ values, Encodes o text values := by
  constructor
  · intro h
    unfold verdict at h
    rcases hscan : ({} : Content).scan o text with ⟨c, _ | e⟩
    · rw [hscan] at h
      have hproper := (Content.proper_empty o).scan hscan
      refine ⟨c.values, hproper.values_lt, _, ?_, hproper.ending?_eq_none_iff.1 h⟩
      exact (Content.row_of_scan hscan).symm
    · rw [hscan] at h
      cases h
  · rintro ⟨values, h⟩
    obtain ⟨k, hscan, hend⟩ := h.scan
    unfold verdict
    rw [hscan]
    exact hend

theorem Encodes.payload (h : Encodes o text values) :
    payload o text = Bits.pack (values.flatMap (Bits.ofNat 6)) := by
  obtain ⟨k, hscan, -⟩ := h.scan
  unfold TextCodec.Base64.payload
  rw [hscan]
  rfl

end Language

/-- **The language of encodings.** With enough room, the text is decoded without an error exactly if
it is an encoding, and then to the whole bytes of the bits of its values, six bits a value. -/
theorem decodeOnce_eq_none_iff_encodes {o : Options} {text : Bytes}
    (hlen : text.length ≤ maxTextLength) {buffer : Bytes}
    (hbuffer : buffer.length = maxDecodedLength text.length) (last : Bytes) :
    ((Stream.decodeOnce o buffer last text).fault = none ↔ ∃ values, Encodes o text values) ∧
      ∀ values, Encodes o text values →
        (Stream.decodeOnce o buffer last text).decoded =
            Bits.pack (values.flatMap (Bits.ofNat 6)) ∧
          (Stream.decodeOnce o buffer last text).decoded.length = 6 * values.length / 8 := by
  have hends : Stream.Ends o text _ _ := Stream.decodeOnce_ends hlen hbuffer last
  refine ⟨by rw [hends.fault, verdict_eq_none_iff], fun values h => ?_⟩
  have hdecoded := (Stream.decoded_decodeOnce hlen hbuffer last).trans h.payload
  refine ⟨hdecoded, ?_⟩
  rw [hdecoded]
  exact Content.length_payload ⟨values, 0⟩

/-- A relaxed text with bytes that are skipped before, between and after the padding. -/
theorem decode_foreign_bytes_and_padding :
    let o : Options := { isStrict := false }
    let text : Bytes := [81, 10, 81, 33, 61, 32, 61, 35]
    let once := Stream.decodeOnce o [0, 0, 0, 0, 0, 0] [] text
    (once.fault = none ∧ once.decoded = [65]) ∧
      (once.fault = none ↔ ∃ values, Encodes o text values) ∧
      ∀ values, Encodes o text values →
        once.decoded = Bits.pack (values.flatMap (Bits.ofNat 6)) ∧
          once.decoded.length = 6 * values.length / 8 :=
  ⟨by decide +kernel, decodeOnce_eq_none_iff_encodes (by decide) (by decide) []⟩

end TextCodec.Base64
