import Mathlib.Data.List.Induction
import TextCodec.Proofs.Base64.Language

/-!
# Which byte is refused, and why

Whether a byte of text is refused depends on the symbols and the `=` before it, and only on their
numbers (`Offends`). Whether a text without such a byte may end depends on the same two numbers
(`Lacks`). A new decoder with enough room reports exactly these refusals: a call that feeds the text
stops at the first byte that offends, when all that the symbols before it encode has been written,
and a call that ends the text says what is missing.

1. A text in which no byte offends has the content that its two numbers tell
   (`scan_of_readable`), and the first byte that offends is the one that is refused
   (`scan_of_offends`).
2. A call with room reads the whole text or stops at that byte (`convert_fedWhole`).
-/

namespace TextCodec.Base64

/-- The values of the symbols of a text, in order. -/
def Alphabet.values (a : Alphabet) (text : Bytes) : List Nat := text.filterMap a.value?

/-! ## Refusals -/

/-- After the bytes `seen`, the byte is refused with this error. -/
inductive Offends (o : Options) (seen : Bytes) : UInt8 → Error → Prop
  /-- A symbol after padding. -/
  | symbol {b : UInt8} (isSymbol : b ∈ o.alphabet.symbols) (padded : 0 < seen.count pad) :
    Offends o seen b .dataAfterPadding
  /-- A `=` where none is read, or where it does not complete a group of two or three symbols. -/
  | padding (misplaced : o.isPadded = false ∨
      seen.count pad = 0 ∧ (o.alphabet.values seen).length % 4 ≠ 2 ∧
        (o.alphabet.values seen).length % 4 ≠ 3 ∨
      0 < seen.count pad ∧ ¬(seen.count pad = 1 ∧ (o.alphabet.values seen).length % 4 = 2)) :
    Offends o seen pad .misplacedPadding
  /-- A byte that is neither a symbol nor `=`, and not skipped. -/
  | foreign {b : UInt8} (not_symbol : b ∉ o.alphabet.symbols) (not_pad : b ≠ pad)
    (not_ignorable : ¬Ignorable o b) : Offends o seen b (.unrecognizedCharacter b)

/-- No byte of the text is refused. -/
def Readable (o : Options) (text : Bytes) : Prop :=
  ∀ done b rest, text = done ++ b :: rest → ∀ e, ¬Offends o done b e

/-- The text is read to its end, but it may not end there. -/
inductive Lacks (o : Options) (text : Bytes) : Error → Prop
  /-- One symbol is less than a byte. -/
  | symbol (alone : text.count pad = 0 ∧ (o.alphabet.values text).length % 4 = 1) :
    Lacks o text .incompleteQuantum
  /-- The second `=` is missing, or all padding where it is required. -/
  | padding (missing : text.count pad = 1 ∧ (o.alphabet.values text).length % 4 = 2 ∨
      text.count pad = 0 ∧ ((o.alphabet.values text).length % 4 = 2 ∨
        (o.alphabet.values text).length % 4 = 3) ∧ o.isStrict = true ∧ o.isPadded = true) :
    Lacks o text .missingPadding

/-- There is room for all that the symbols of the text encode. -/
def HasRoom (o : Options) (text buffer : Bytes) : Prop :=
  6 * (o.alphabet.values text).length / 8 ≤ buffer.length

/-! ## The content of a text -/

namespace Content

/-- The content of a text that is read to its end. -/
def ofText (o : Options) (text : Bytes) : Content := ⟨o.alphabet.values text, text.count pad⟩

theorem length_payload_ofText (o : Options) (text : Bytes) :
    (ofText o text).payload.length = 6 * (o.alphabet.values text).length / 8 :=
  length_payload _

section Take

variable {o : Options} {seen text : Bytes} {b : UInt8} {c : Content} {e : Error}

theorem ofText_append_symbol {v : Nat} (h : o.alphabet.value? b = some v) :
    ofText o (seen ++ [b]) = (ofText o seen).addSymbol v := by
  have hpad : b ≠ pad := by
    rintro rfl
    rw [o.alphabet.value?_pad] at h
    cases h
  unfold ofText Alphabet.values addSymbol
  rw [List.filterMap_append, List.filterMap_cons_some h, List.count_append,
    List.count_singleton, if_neg (by simpa using hpad)]
  rfl

theorem ofText_append_pad : ofText o (seen ++ [pad]) = (ofText o seen).addPad := by
  unfold ofText Alphabet.values addPad
  rw [List.filterMap_append, List.filterMap_cons_none o.alphabet.value?_pad, List.count_append,
    List.count_singleton, List.filterMap_nil, List.append_nil]
  rfl

theorem ofText_append_of_skips (h : o.skips b = true) : ofText o (seen ++ [b]) = ofText o seen := by
  have hpad : b ≠ pad := by
    rintro rfl
    rw [o.not_skips_pad] at h
    cases h
  unfold ofText Alphabet.values
  rw [List.filterMap_append, List.filterMap_cons_none (o.value?_of_skips h), List.count_append,
    List.count_singleton, if_neg (by simpa using hpad), List.filterMap_nil, List.append_nil]
  rfl

/-- A byte that is read adds to the content. -/
theorem eq_ofText_of_take (h : (ofText o seen).take o b = .ok c) : c = ofText o (seen ++ [b]) := by
  by_cases hs : o.skips b = true
  · rw [take_of_skips hs] at h
    cases h
    exact (ofText_append_of_skips hs).symm
  · rcases take_cases h hs with ⟨v, hv, -, rfl⟩ | ⟨rfl, -, -, rfl⟩
    · exact (ofText_append_symbol hv).symm
    · exact ofText_append_pad.symm

theorem not_awaitsPad_ofText : ¬(ofText o seen).AwaitsPad ↔
    seen.count pad = 0 ∧ (o.alphabet.values seen).length % 4 ≠ 2 ∧
        (o.alphabet.values seen).length % 4 ≠ 3 ∨
      0 < seen.count pad ∧ ¬(seen.count pad = 1 ∧ (o.alphabet.values seen).length % 4 = 2) := by
  unfold AwaitsPad lastGroup ofText
  dsimp only
  omega

/-- The bytes that offend are those that are refused. -/
theorem take_ofText_eq_error_iff : (ofText o seen).take o b = .error e ↔ Offends o seen b e := by
  unfold take
  constructor
  · intro h
    cases hv : o.alphabet.value? b with
    | some v =>
      rw [hv] at h
      dsimp only at h
      split_ifs at h with hp
      cases h
      have hmem : b ∈ o.alphabet.symbols := by
        by_contra hno
        rw [Alphabet.value?_eq_none_iff.2 hno] at hv
        cases hv
      exact .symbol hmem (Nat.pos_of_ne_zero hp)
    | none =>
      rw [hv] at h
      dsimp only at h
      split_ifs at h with hpad ha hs
      · cases h
        rw [hpad]
        refine .padding ?_
        rw [not_and_or, Bool.not_eq_true, not_awaitsPad_ofText] at ha
        exact ha
      · cases h
        exact .foreign (Alphabet.value?_eq_none_iff.1 hv) hpad (skips_iff.not.1 hs)
  · intro h
    cases h with
    | symbol isSymbol padded =>
      cases hv : o.alphabet.value? b with
      | none => exact absurd isSymbol (Alphabet.value?_eq_none_iff.1 hv)
      | some v => exact if_neg (Nat.pos_iff_ne_zero.1 padded)
    | padding misplaced =>
      rw [o.alphabet.value?_pad]
      dsimp only
      rw [if_pos rfl, if_neg]
      rw [not_and_or, Bool.not_eq_true, not_awaitsPad_ofText]
      exact misplaced
    | foreign not_symbol not_pad not_ignorable =>
      rw [Alphabet.value?_eq_none_iff.2 not_symbol]
      dsimp only
      rw [if_neg not_pad, if_neg (skips_iff.not.2 not_ignorable)]

theorem ending?_ofText_eq_some_iff : (ofText o text).ending? o = some e ↔ Lacks o text e := by
  unfold ending? lastGroup ofText Options.requiresPadding
  dsimp only
  constructor
  · intro h
    split_ifs at h with h0 h1 h2 h3 <;> cases h
    · exact .symbol ⟨h0, h1⟩
    · rw [Bool.and_eq_true] at h2
      exact .padding (Or.inr ⟨h0, by omega, h2.2.2, h2.2.1⟩)
    · exact .padding (Or.inl h3)
  · intro h
    cases h with
    | symbol alone => rw [if_pos alone.1, if_pos alone.2]
    | padding missing =>
      rcases missing with ⟨h1, h2⟩ | ⟨h0, hl, hstrict, hpadded⟩
      · rw [if_neg (by omega), if_pos ⟨h1, h2⟩]
      · rw [if_pos h0, if_neg (by omega), if_pos ⟨by omega, by rw [hstrict, hpadded]; rfl⟩]

end Take

end Content

/-! ## Reading a text -/

section Reading

variable {o : Options} {text done rest : Bytes} {b : UInt8} {c : Content} {e : Error}

theorem readable_nil (o : Options) : Readable o [] := by
  intro done b rest h
  simp at h

theorem readable_append_singleton :
    Readable o (text ++ [b]) ↔ Readable o text ∧ ∀ e, ¬Offends o text b e := by
  constructor
  · intro h
    refine ⟨fun done b' rest hsplit => h done b' (rest ++ [b]) ?_, h text b [] rfl⟩
    rw [hsplit, List.append_assoc, List.cons_append]
  · rintro ⟨htext, hb⟩ done b' rest hsplit
    rcases List.eq_nil_or_concat rest with rfl | ⟨rest, b'', rfl⟩
    · obtain ⟨rfl, hlast⟩ := List.append_inj' hsplit rfl
      cases hlast
      exact hb
    · rw [List.concat_eq_append, ← List.cons_append, ← List.append_assoc] at hsplit
      exact htext done b' rest (List.append_inj_left' hsplit rfl)

/-- A text in which no byte offends is read to its end. -/
theorem scan_of_readable (h : Readable o text) :
    ({} : Content).scan o text = (.ofText o text, none) := by
  induction text using List.reverseRecOn with
  | nil => rfl
  | append_singleton text b ih =>
    obtain ⟨htext, hb⟩ := readable_append_singleton.1 h
    rw [Content.scan_append_of_none (ih htext)]
    cases htake : (Content.ofText o text).take o b with
    | error e => exact absurd (Content.take_ofText_eq_error_iff.1 htake) (hb e)
    | ok c =>
      rw [Content.scan_cons_of_ok htake, Content.eq_ofText_of_take htake]
      rfl

/-- The first byte that offends is refused. -/
theorem scan_of_offends (hdone : Readable o done) (hb : Offends o done b e) (rest : Bytes) :
    ({} : Content).scan o (done ++ b :: rest) = (.ofText o done, some e) :=
  Content.scan_append_of_error (scan_of_readable hdone) (Content.take_ofText_eq_error_iff.2 hb) rest

/-- Wherever a text is cut before its first byte that offends, it is the same error and content. -/
theorem offends_unique {done' rest' : Bytes} {b' : UInt8} {e' : Error}
    (h : done' ++ b' :: rest' = done ++ b :: rest) (hdone : Readable o done)
    (hb : Offends o done b e) (hdone' : Readable o done') (hb' : Offends o done' b' e') :
    Content.ofText o done' = .ofText o done ∧ e' = e := by
  have hscan := scan_of_offends hdone' hb' rest'
  rw [h, scan_of_offends hdone hb rest, Prod.mk.injEq, Option.some.injEq] at hscan
  exact ⟨hscan.1.symm, hscan.2.symm⟩

/-- A text that is read to its end has no byte that offends. -/
theorem readable_of_scan (h : ({} : Content).scan o text = (c, none)) : Readable o text := by
  induction text using List.reverseRecOn generalizing c with
  | nil => exact readable_nil o
  | append_singleton text b ih =>
    have htext : Readable o text := by
      cases hscan : ({} : Content).scan o text with
      | mk d fault =>
        cases fault with
        | none => exact ih hscan
        | some e =>
          rw [Content.scan_append_of_some hscan] at h
          cases h
    refine readable_append_singleton.2 ⟨htext, fun e hb => ?_⟩
    rw [scan_of_offends htext hb] at h
    cases h

end Reading

/-! ## One call -/

instance (o : Options) (text buffer : Bytes) : Decidable (HasRoom o text buffer) := by
  unfold HasRoom
  infer_instance

/-- What a call comes to that feeds a whole text with enough room to a new decoder. -/
inductive FedWhole (o : Options) (text : Bytes) (r : Outcome Progress) : Prop
  /-- No byte offends. The text is read to its end, and no byte waits. -/
  | read (readable : Readable o text) (tracks : Tracks o r.decoder r.output (.ofText o text))
    (free : r.decoder.reservoir.hasByte = false)
    (result : r.result = .ok ⟨text.length, r.output.length⟩)
  /-- The text is read to the first byte that offends. -/
  | refused (done rest : Bytes) (b : UInt8) (e : Error) (split : text = done ++ b :: rest)
    (readable : Readable o done) (offends : Offends o done b e) (result : r.result = .error e)
    (output : r.output = (Content.ofText o done).payload)

section Calls

variable {o : Options} {text buffer : Bytes}

theorem convert_fedWhole (hroom : HasRoom o text buffer) :
    FedWhole o text ((Decoder.new o).convert buffer text) := by
  cases convert_fed (tracks_new o) buffer text with
  | taken c done rest split read tracks result blocked full =>
    have hdone := readable_of_scan read
    rw [scan_of_readable hdone] at read
    cases read
    have hfree : ((Decoder.new o).convert buffer text).decoder.reservoir.hasByte = false := by
      refine tracks.not_hasByte_of_room full (Nat.le_trans ?_ (Nat.le_add_left _ _))
      refine Nat.le_trans ?_ hroom
      rw [Content.length_payload_ofText, split]
      unfold Alphabet.values
      rw [List.filterMap_append, List.length_append]
      omega
    have hrest : rest = [] := by
      by_contra hne
      rw [blocked hne] at hfree
      cases hfree
    rw [hrest, List.append_nil] at split
    subst split
    rw [Nat.zero_add] at result
    exact .read hdone tracks hfree result
  | refused c done rest b e split read error result stage output =>
    have hdone := readable_of_scan read
    rw [scan_of_readable hdone] at read
    cases read
    have hoffends := Content.take_ofText_eq_error_iff.1 error
    exact .refused done rest b e split hdone hoffends result output

/-- A text that has been read to its end is refused for what it lacks. -/
theorem finish_eq_error_iff {d : Decoder} {out : Bytes} (h : Tracks o d out (.ofText o text))
    (hfree : d.reservoir.hasByte = false) (last : Bytes) {e : Error} :
    (d.finish last).result = .error e ↔ Lacks o text e := by
  rw [← Content.ending?_ofText_eq_some_iff]
  cases finish_ended h last with
  | refused e' ending result stage output =>
    rw [result, ending, Except.error.injEq, Option.some.injEq]
  | blocked ending result stage waits room =>
    rw [hfree] at waits
    cases waits
  | complete ending result stage output =>
    rw [result, ending]
    constructor <;> nofun

end Calls

/-- **Refusals.** With enough room, a text is refused for its first byte that offends, when the
whole bytes of the symbols before it have been written and no more. If no byte offends, the whole
text is read, and then it is refused for what it lacks at its end. -/
theorem refusals_of_hasRoom {o : Options} {text buffer : Bytes}
    (hroom : HasRoom o text buffer) (last : Bytes) :
    let fed := (Decoder.new o).convert buffer text
    let ended := fed.decoder.finish last
    (∀ e, fed.result = .error e ↔
        ∃ done b rest, text = done ++ b :: rest ∧ Readable o done ∧ Offends o done b e) ∧
      (∀ done b rest e, text = done ++ b :: rest → Readable o done → Offends o done b e →
        fed.output = Bits.pack ((o.alphabet.values done).flatMap (Bits.ofNat 6)) ∧
          fed.decoder.outputLength = 6 * (o.alphabet.values done).length / 8) ∧
      (Readable o text → (∃ n, fed.result = .ok ⟨text.length, n⟩) ∧
        ∀ e, ended.result = .error e ↔ Lacks o text e) := by
  intro fed ended
  have hfed : FedWhole o text fed := convert_fedWhole hroom
  cases hfed with
  | read readable tracks free result =>
    refine ⟨fun e => ⟨fun h => ?_, ?_⟩, ?_, fun _ => ⟨⟨_, result⟩, fun e => ?_⟩⟩
    · rw [result] at h
      cases h
    · rintro ⟨done, b, rest, split, -, hb⟩
      exact absurd hb (readable done b rest split e)
    · intro done b rest e split _ hb
      exact absurd hb (readable done b rest split e)
    · exact finish_eq_error_iff tracks free last
  | refused done rest b e split readable offends result output =>
    refine ⟨fun e' => ⟨fun h => ?_, ?_⟩, ?_, fun h => ?_⟩
    · rw [result] at h
      cases h
      exact ⟨done, b, rest, split, readable, offends⟩
    · rintro ⟨done', b', rest', split', readable', offends'⟩
      have hsplit := split'.symm.trans split
      have herror := (offends_unique hsplit readable offends readable' offends').2
      rw [result, herror]
    · intro done' b' rest' e' split' readable' offends'
      have hcontent :=
        (offends_unique (split'.symm.trans split) readable offends readable' offends').1
      have hpayload : fed.output = (Content.ofText o done').payload := by rw [output, hcontent]
      refine ⟨hpayload, ?_⟩
      rw [← length_output_convert, ← Content.length_payload_ofText]
      exact congrArg List.length hpayload
    · exact absurd offends (h done b rest split e)

/-- A symbol after padding, with blanks between. Both bytes of the three symbols before it have been
written. -/
theorem refusals_symbol_after_padding :
    let o : Options := {}
    let text : Bytes := [81, 32, 85, 73, 61, 10, 81]
    let fed := (Decoder.new o).convert [35, 35, 35] text
    let ended := fed.decoder.finish []
    HasRoom o text [35, 35, 35] ∧
      (fed.result = .error .dataAfterPadding ∧ fed.buffer = [65, 66, 35]) ∧
      (∀ e, fed.result = .error e ↔
        ∃ done b rest, text = done ++ b :: rest ∧ Readable o done ∧ Offends o done b e) ∧
      (∀ done b rest e, text = done ++ b :: rest → Readable o done → Offends o done b e →
        fed.output = Bits.pack ((o.alphabet.values done).flatMap (Bits.ofNat 6)) ∧
          fed.decoder.outputLength = 6 * (o.alphabet.values done).length / 8) ∧
      (Readable o text → (∃ n, fed.result = .ok ⟨text.length, n⟩) ∧
        ∀ e, ended.result = .error e ↔ Lacks o text e) :=
  ⟨by decide +kernel, by decide +kernel, refusals_of_hasRoom (by decide +kernel) []⟩

end TextCodec.Base64
