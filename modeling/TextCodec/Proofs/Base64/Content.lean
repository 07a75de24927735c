import Mathlib.Tactic.Common
import Mathlib.Tactic.SplitIfs
import TextCodec.Base64.Decoder
import TextCodec.Proofs.Bits

/-!
# The content of encoded text

What a text says, apart from the pieces in which it comes and the buffers that it is decoded to:
the values of its symbols in order, and the number of `=` after them. `Content.scan` reads a text
byte by byte up to the first one that is refused. `Content.ending?` says why a text cannot end
where it does.

The bytes that the symbols encode are the whole bytes of their bits, six a symbol
(`Content.payload`).
-/

namespace TextCodec.Base64

/-- What the text so far consists of. -/
structure Content where
  /-- The values of the symbols, in order. -/
  values : List Nat := []
  /-- The number of `=` after the symbols. -/
  pads : Nat := 0
deriving DecidableEq, Repr

namespace Content

/-- The number of symbols after the last complete group of four. -/
def lastGroup (c : Content) : Nat := c.values.length % 4

theorem lastGroup_lt (c : Content) : c.lastGroup < 4 := Nat.mod_lt _ (by decide)

/-- Whether a `=` may follow. One completes a group of three symbols, and two a group of two. -/
def AwaitsPad (c : Content) : Prop :=
  c.pads = 0 ∧ (c.lastGroup = 2 ∨ c.lastGroup = 3) ∨ c.pads = 1 ∧ c.lastGroup = 2

instance : DecidablePred AwaitsPad := fun _ => inferInstanceAs (Decidable (_ ∨ _))

/-- The content with one symbol more. -/
def addSymbol (c : Content) (value : Nat) : Content := { c with values := c.values ++ [value] }

/-- The content with one `=` more. -/
def addPad (c : Content) : Content := { c with pads := c.pads + 1 }

/-- The content after one more byte of text. -/
def take (o : Options) (c : Content) (b : UInt8) : Except Error Content :=
  match o.alphabet.value? b with
  | some v =>
    if c.pads = 0 then .ok (c.addSymbol v) else .error .dataAfterPadding
  | none =>
    if b = pad then
      if o.isPadded ∧ c.AwaitsPad then .ok c.addPad else .error .misplacedPadding
    else if o.skips b then .ok c
    else .error (.unrecognizedCharacter b)

/-- Reads a text to its end, or to the first byte that is refused. Returns the content up to there,
and why the byte was refused. -/
def scan (o : Options) (c : Content) : Bytes → Content × Option Error
  | [] => (c, none)
  | b :: text =>
    match c.take o b with
    | .ok c => c.scan o text
    | .error e => (c, some e)

/-- Why a text with this content is not complete, if it is not. -/
def ending? (o : Options) (c : Content) : Option Error :=
  if c.pads = 0 then
    if c.lastGroup = 1 then some .incompleteQuantum
    else if c.lastGroup ≠ 0 ∧ o.requiresPadding then some .missingPadding
    else none
  else if c.pads = 1 ∧ c.lastGroup = 2 then some .missingPadding
  else none

/-! ## Reading -/

section Scan

variable {o : Options} {c d : Content} {b : UInt8} {x : Bytes} {e : Error}

theorem scan_cons_of_ok (h : c.take o b = .ok d) (x : Bytes) : c.scan o (b :: x) = d.scan o x := by
  rw [scan, h]

theorem scan_cons_of_error (h : c.take o b = .error e) (x : Bytes) :
    c.scan o (b :: x) = (c, some e) := by
  rw [scan, h]

theorem scan_append_of_none (h : c.scan o x = (d, none)) (y : Bytes) :
    c.scan o (x ++ y) = d.scan o y := by
  induction x generalizing c with
  | nil =>
    cases h
    rfl
  | cons b x ih =>
    rw [List.cons_append]
    cases hb : c.take o b with
    | error e =>
      rw [scan_cons_of_error hb] at h
      cases h
    | ok c' =>
      rw [scan_cons_of_ok hb] at h ⊢
      exact ih h

/-- What follows a byte that is refused is not read. -/
theorem scan_append_of_some (h : c.scan o x = (d, some e)) (y : Bytes) :
    c.scan o (x ++ y) = (d, some e) := by
  induction x generalizing c with
  | nil => cases h
  | cons b x ih =>
    rw [List.cons_append]
    cases hb : c.take o b with
    | error e' =>
      rw [scan_cons_of_error hb] at h ⊢
      exact h
    | ok c' =>
      rw [scan_cons_of_ok hb] at h ⊢
      exact ih h

theorem scan_append_of_error (h : c.scan o x = (d, none)) (hb : d.take o b = .error e) (y : Bytes) :
    c.scan o (x ++ b :: y) = (d, some e) := by
  rw [scan_append_of_none h, scan_cons_of_error hb]

/-- Every symbol takes a byte of text. -/
theorem length_values_take (h : c.take o b = .ok d) : d.values.length ≤ c.values.length + 1 := by
  unfold take at h
  split at h
  · split_ifs at h
    cases h
    simp [addSymbol]
  · split_ifs at h <;> cases h
    · exact Nat.le_succ _
    · exact Nat.le_succ _

/-- Symbols that have been read stay. -/
theorem le_length_values_take (h : c.take o b = .ok d) : c.values.length ≤ d.values.length := by
  unfold take at h
  split at h
  · split_ifs at h
    cases h
    simp [addSymbol]
  · split_ifs at h <;> cases h
    · exact Nat.le_refl _
    · exact Nat.le_refl _

theorem le_length_values_scan (h : c.scan o x = (d, none)) :
    c.values.length ≤ d.values.length := by
  induction x generalizing c with
  | nil =>
    cases h
    exact Nat.le_refl _
  | cons b x ih =>
    cases hb : c.take o b with
    | error e =>
      rw [scan_cons_of_error hb] at h
      cases h
    | ok c' =>
      rw [scan_cons_of_ok hb] at h
      exact Nat.le_trans (le_length_values_take hb) (ih h)

theorem length_values_scan (h : c.scan o x = (d, none)) :
    d.values.length ≤ c.values.length + x.length := by
  induction x generalizing c with
  | nil =>
    cases h
    exact Nat.le_refl _
  | cons b x ih =>
    cases hb : c.take o b with
    | error e =>
      rw [scan_cons_of_error hb] at h
      cases h
    | ok c' =>
      rw [scan_cons_of_ok hb] at h
      have h1 := ih h
      have h2 := length_values_take hb
      rw [List.length_cons]
      omega

end Scan

/-! ## Bits and bytes -/

/-- The bits of the symbols, six each. -/
def bits (c : Content) : List Bool := c.values.flatMap (Bits.ofNat 6)

@[simp] theorem length_bits (c : Content) : c.bits.length = 6 * c.values.length :=
  Bits.length_flatMap_ofNat 6 c.values

/-- The bits that are not known to be left over. Padding tells that those beyond whole bytes are. -/
def kept (c : Content) : List Bool :=
  if c.pads = 0 then c.bits else c.bits.take (8 * (c.bits.length / 8))

/-- The bytes that the symbols encode. -/
def payload (c : Content) : Bytes := Bits.pack c.bits

theorem length_payload (c : Content) : c.payload.length = 6 * c.values.length / 8 := by
  rw [payload, Bits.length_pack, length_bits]

theorem pack_kept (c : Content) : Bits.pack c.kept = c.payload := by
  unfold kept payload
  split
  · rfl
  · exact Bits.pack_take _

section Kept

variable {c : Content}

theorem kept_of_pads_eq_zero (h : c.pads = 0) : c.kept = c.bits := if_pos h

theorem kept_of_pads_ne_zero (h : c.pads ≠ 0) :
    c.kept = c.bits.take (8 * (c.bits.length / 8)) :=
  if_neg h

theorem kept_addSymbol (h : c.pads = 0) (v : Nat) :
    (c.addSymbol v).kept = c.kept ++ Bits.ofNat 6 v := by
  rw [kept_of_pads_eq_zero h, kept_of_pads_eq_zero (c := c.addSymbol v) h]
  simp [bits, addSymbol]

/-- The first `=` tells which bits are left over. -/
theorem kept_addPad (c : Content) : c.addPad.kept = c.bits.take (8 * (c.bits.length / 8)) :=
  kept_of_pads_ne_zero (c := c.addPad) (Nat.succ_ne_zero _)

end Kept

/-! ## Stages -/

/-- The stage of a decoder that has read the content. -/
def stage (c : Content) : Stage :=
  if c.pads = 0 then if c.values = [] then .initial else .symbols c.lastGroup
  else if c.pads = 1 ∧ c.lastGroup = 2 then .halfPadded
  else .padded

section Stage

variable {c : Content}

theorem stage_of_nil (h : c.pads = 0) (hnil : c.values = []) : c.stage = .initial := by
  unfold stage
  rw [if_pos h, if_pos hnil]

theorem stage_of_symbols (h : c.pads = 0) (hne : c.values ≠ []) :
    c.stage = .symbols c.lastGroup := by
  unfold stage
  rw [if_pos h, if_neg hne]

theorem stage_of_half (h : c.pads = 1) (hl : c.lastGroup = 2) : c.stage = .halfPadded := by
  unfold stage
  rw [if_neg (by omega), if_pos ⟨h, hl⟩]

theorem stage_of_padded (h : c.pads ≠ 0) (hl : ¬(c.pads = 1 ∧ c.lastGroup = 2)) :
    c.stage = .padded := by
  unfold stage
  rw [if_neg h, if_neg hl]

theorem lastGroup_of_nil (h : c.values = []) : c.lastGroup = 0 := by
  unfold lastGroup
  rw [h]
  rfl

/-- More symbols may follow as long as no `=` has come. -/
theorem count?_stage (c : Content) :
    c.stage.count? = if c.pads = 0 then some c.lastGroup else none := by
  unfold stage
  split_ifs with hp hnil
  · rw [lastGroup_of_nil hnil]
    rfl
  all_goals rfl

theorem stage_addSymbol (h : c.pads = 0) (v : Nat) :
    (c.addSymbol v).stage = .symbols ((c.lastGroup + 1) % 4) := by
  rw [stage_of_symbols (c := c.addSymbol v) h (by simp [addSymbol])]
  unfold lastGroup addSymbol
  rw [Nat.mod_add_mod, List.length_append]
  rfl

theorem stage_addPad_of_half (h : c.pads = 0) (hl : c.lastGroup = 2) :
    c.addPad.stage = .halfPadded :=
  stage_of_half (c := c.addPad) (congrArg (· + 1) h) hl

theorem stage_addPad_of_full (h : ¬(c.pads = 0 ∧ c.lastGroup = 2)) : c.addPad.stage = .padded := by
  apply stage_of_padded (c := c.addPad) (Nat.succ_ne_zero _)
  rintro ⟨hp, hl⟩
  exact h ⟨Nat.succ.inj hp, hl⟩

end Stage

end Content

end TextCodec.Base64
