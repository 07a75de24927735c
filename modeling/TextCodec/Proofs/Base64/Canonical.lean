import TextCodec.Proofs.Base64.Refusals
import TextCodec.Proofs.Base64.RoundTrip

/-!
# Canonical forms

A decoder forgives blanks and foreign bytes, missing padding, and bits of the last symbol that no
byte uses. The canonical form of a text has none of these: it is the symbols of the text with the
unused bits of the last one cleared, and the padding that completes their row. What a text decodes
to is encoded as its canonical form (`encode_eq_canonical`), so two texts decode to the same bytes
exactly if they have the same canonical form.

Clearing the unused bits leaves the bits that make whole bytes, and zeros (`flatMap_clearLast`).
These are the bits of the encoding, too, and a row of values is determined by its bits
(`eq_of_flatMap_ofNat`).
-/

namespace TextCodec.Base64

/-! ## Canonical forms -/

/-- How many bits of the last of `n` symbols no byte uses. -/
def unusedBits (n : Nat) : Nat := if n % 4 = 2 then 4 else if n % 4 = 3 then 2 else 0

/-- The values with the lowest `k` bits of the last one cleared. -/
def clearLast (k : Nat) : List Nat → List Nat
  | [] => []
  | [v] => [v / 2 ^ k * 2 ^ k]
  | v :: w :: values => v :: clearLast k (w :: values)

/-- The symbols of the text with the unused bits of the last one cleared, and their padding. -/
def canonical (a : Alphabet) (padded : Bool) (text : Bytes) : Bytes :=
  let values := a.values text
  (clearLast (unusedBits values.length) values).map a.symbol ++
    if padded then List.replicate ((4 - values.length % 4) % 4) pad else []

/-- A new decoder takes the whole text with one call and ends it with another, and these calls write
the bytes. -/
def Accepts (o : Options) (text bytes : Bytes) : Prop :=
  ∃ buffer last : Bytes,
    let fed := (Decoder.new o).convert buffer text
    let ended := fed.decoder.finish last
    (∃ n, fed.result = .ok ⟨text.length, n⟩) ∧ (∃ n, ended.result = .ok n) ∧
      fed.output ++ ended.output = bytes

/-! ## Rows of values and their bits -/

theorem eq_of_flatMap_ofNat {a b : List Nat} (ha : ∀ v ∈ a, v < 64) (hb : ∀ v ∈ b, v < 64)
    (h : a.flatMap (Bits.ofNat 6) = b.flatMap (Bits.ofNat 6)) : a = b := by
  have hlen : a.length = b.length := by
    have hbits := congrArg List.length h
    rw [Bits.length_flatMap_ofNat, Bits.length_flatMap_ofNat] at hbits
    exact Nat.eq_of_mul_eq_mul_left (by decide) hbits
  induction a generalizing b with
  | nil => exact (List.length_eq_zero_iff.1 hlen.symm).symm
  | cons v a ih =>
    cases b with
    | nil => cases hlen
    | cons w b =>
      rw [List.flatMap_cons, List.flatMap_cons] at h
      obtain ⟨hfirst, hrest⟩ := List.append_inj h (by simp)
      rw [Bits.eq_of_ofNat (ha v List.mem_cons_self) (hb w List.mem_cons_self) hfirst,
        ih (fun x hx => ha x (List.mem_cons_of_mem _ hx))
          (fun x hx => hb x (List.mem_cons_of_mem _ hx)) hrest (Nat.succ.inj hlen)]

theorem clearLast_lt {k : Nat} {values : List Nat} (h : ∀ v ∈ values, v < 64) :
    ∀ v ∈ clearLast k values, v < 64 := by
  induction values using clearLast.induct with
  | case1 => exact h
  | case2 v =>
    intro w hw
    rw [clearLast, List.mem_singleton] at hw
    rw [hw]
    exact Nat.lt_of_le_of_lt (Nat.div_mul_le_self v _) (h v List.mem_cons_self)
  | case3 v w values ih =>
    intro x hx
    rcases List.mem_cons.1 hx with rfl | hx
    · exact h x List.mem_cons_self
    · exact ih (fun y hy => h y (List.mem_cons_of_mem _ hy)) x hx

/-- The bits that are not cleared stay. -/
theorem ofNat_clear {k v : Nat} (hk : k ≤ 6) (hv : v < 64) :
    Bits.ofNat 6 (v / 2 ^ k * 2 ^ k) =
      (Bits.ofNat 6 v).take (6 - k) ++ List.replicate k false := by
  have hsplit : 6 - k + k = 6 := Nat.sub_add_cancel hk
  have hlt : v / 2 ^ k < 2 ^ (6 - k) := by
    rw [Nat.div_lt_iff_lt_mul (Nat.two_pow_pos k), ← Nat.pow_add, hsplit]
    exact hv
  have hfilled := ofNat_filled (6 - k) k (v / 2 ^ k)
  have hbits := Bits.ofNat_add (6 - k) k v
  rw [Nat.mod_eq_of_lt hlt, hsplit] at hfilled
  rw [hsplit] at hbits
  rw [hfilled, hbits, List.take_left' (Bits.length_ofNat _ _)]

theorem flatMap_clearLast {k : Nat} {values : List Nat} (hk : k ≤ 6) (h : ∀ v ∈ values, v < 64)
    (hne : values ≠ []) : (clearLast k values).flatMap (Bits.ofNat 6) =
      (values.flatMap (Bits.ofNat 6)).take (6 * values.length - k) ++ List.replicate k false := by
  induction values using clearLast.induct with
  | case1 => exact absurd rfl hne
  | case2 v =>
    have hclear := ofNat_clear hk (h v List.mem_cons_self)
    simpa [clearLast] using hclear
  | case3 v w values ih =>
    have hrest := ih (fun x hx => h x (List.mem_cons_of_mem _ hx)) (List.cons_ne_nil _ _)
    have hlen : 6 * (v :: w :: values).length - k =
        (Bits.ofNat 6 v).length + (6 * (w :: values).length - k) := by
      rw [Bits.length_ofNat, List.length_cons, List.length_cons]
      omega
    have hbits : (v :: w :: values).flatMap (Bits.ofNat 6) =
        Bits.ofNat 6 v ++ (w :: values).flatMap (Bits.ofNat 6) := List.flatMap_cons
    rw [hbits, hlen, List.take_length_add_append, clearLast, List.flatMap_cons, hrest,
      List.append_assoc]

/-! ## Encodings -/

section Encoding

variable {o : Options} {text bytes : Bytes}

theorem values_lt {a : Alphabet} {v : Nat} (h : v ∈ a.values text) : v < 64 := by
  obtain ⟨b, -, hb⟩ := List.mem_filterMap.1 h
  exact (Alphabet.value?_eq_some_iff.1 hb).1

/-- A row that may be closed has no single symbol in its last group. -/
theorem MayClose.mod_ne_one {n : Nat} {padding : Bytes} (h : MayClose o n padding) :
    n % 4 ≠ 1 := by
  unfold MayClose at h
  split_ifs at h <;> omega

/-- The values of the encoding of whole bytes of bits. -/
theorem sextets_pack {values : List Nat} (hv : ∀ v ∈ values, v < 64)
    (hmod : values.length % 4 ≠ 1) :
    sextets (Bits.pack (values.flatMap (Bits.ofNat 6))) =
      clearLast (unusedBits values.length) values := by
  refine eq_of_flatMap_ofNat (fun v h => sextets_lt h) (clearLast_lt hv) ?_
  by_cases hnil : values = []
  · rw [hnil]
    rfl
  · have hk : unusedBits values.length ≤ 6 := by
      unfold unusedBits
      split_ifs <;> decide
    have hzeros : 2 * missing (6 * values.length / 8) = unusedBits values.length := by
      unfold missing unusedBits
      split_ifs <;> omega
    have hwhole : 8 * (6 * values.length / 8) = 6 * values.length - unusedBits values.length := by
      unfold unusedBits
      split_ifs <;> omega
    rw [flatMap_sextets, Bits.ofBytes_pack, Bits.length_pack, Bits.length_flatMap_ofNat,
      flatMap_clearLast hk hv hnil, hzeros, hwhole]

theorem Encodes.values_eq {values : List Nat} (h : Encodes o text values) :
    values = o.alphabet.values text := by
  obtain ⟨k, hscan, -⟩ := h.scan
  rw [scan_of_readable (readable_of_scan hscan), Prod.mk.injEq] at hscan
  exact (congrArg Content.values hscan.1).symm

/-- What a decoder accepts is an encoding, and it writes the whole bytes of its symbols. -/
theorem Accepts.encodes (h : Accepts o text bytes) :
    Encodes o text (o.alphabet.values text) ∧
      bytes = Bits.pack ((o.alphabet.values text).flatMap (Bits.ofNat 6)) := by
  obtain ⟨buffer, last, ⟨n, hfed⟩, ⟨m, hended⟩, rfl⟩ := h
  cases convert_fed (tracks_new o) buffer text with
  | taken c done rest split read tracks result blocked full =>
    have hrest : rest = [] := by
      have hlen := congrArg List.length split
      rw [hfed, Except.ok.injEq, Progress.mk.injEq] at result
      rw [List.length_append] at hlen
      exact List.length_eq_zero_iff.1 (by omega)
    rw [hrest, List.append_nil] at split
    subst split
    have hscan := scan_of_readable (readable_of_scan read)
    rw [hscan] at read
    cases read
    cases finish_ended tracks last with
    | refused e ending result stage output =>
      rw [hended] at result
      cases result
    | blocked ending result stage waits room =>
      rw [hended] at result
      cases result
    | complete ending result stage output =>
      have hverdict : verdict o text = none := by
        unfold verdict
        rw [hscan]
        exact ending
      obtain ⟨values, hencodes⟩ := verdict_eq_none_iff.1 hverdict
      exact ⟨hencodes.values_eq ▸ hencodes, output⟩
  | refused c done rest b e split read error result stage output =>
    rw [hfed] at result
    cases result

/-- What a text decodes to is encoded as its canonical form. -/
theorem encode_eq_canonical (h : Accepts o text bytes) (padded : Bool) :
    encode o.alphabet padded bytes = canonical o.alphabet padded text := by
  obtain ⟨hencodes, rfl⟩ := h.encodes
  obtain ⟨closing, -, hclose⟩ := hencodes.row
  have hmod := hclose.mod_ne_one
  have hmissing : missing (6 * (o.alphabet.values text).length / 8) =
      (4 - (o.alphabet.values text).length % 4) % 4 := by
    have hcases : (o.alphabet.values text).length % 4 = 0 ∨
        (o.alphabet.values text).length % 4 = 2 ∨ (o.alphabet.values text).length % 4 = 3 := by
      omega
    unfold missing
    rcases hcases with hl | hl | hl <;> omega
  rw [encode_eq, sextets_pack (fun v hv => values_lt hv) hmod]
  unfold canonical padding
  rw [Bits.length_pack, Bits.length_flatMap_ofNat, hmissing]

/-- Encodings of different bytes differ. -/
theorem encode_injective {a : Alphabet} {padded : Bool} {bytes bytes' : Bytes}
    (h : encode a padded bytes = encode a padded bytes') : bytes = bytes' := by
  have hreads : Options.Reads { alphabet := a, isPadded := padded } padded := by
    cases padded <;> rfl
  have hbytes := (encodes_encode hreads bytes).payload
  have hbytes' := (encodes_encode hreads bytes').payload
  rw [pack_sextets] at hbytes hbytes'
  rw [← hbytes, ← hbytes', h]

end Encoding

/-- **Canonical forms.** Encoding what a text decodes to writes the canonical form of the text, or
nothing if the buffer is too short for it. So two texts in the same alphabet decode to the same
bytes exactly if they have the same canonical form. -/
theorem encodeInto_of_accepts {engines : Engines} (hlawful : engines.Lawful) {o : Options}
    {text bytes : Bytes} (h : Accepts o text bytes) :
    (∀ (padded : Bool) (buffer : Bytes),
        engines.encodeInto o.alphabet padded bytes buffer =
          let form := canonical o.alphabet padded text
          if buffer.length < form.length then .error {}
          else .ok (form.length, buffer.overwrite form)) ∧
      ∀ (o' : Options) (text' bytes' : Bytes), o'.alphabet = o.alphabet →
        Accepts o' text' bytes' → ∀ padded : Bool,
          bytes = bytes' ↔
            canonical o.alphabet padded text = canonical o.alphabet padded text' := by
  refine ⟨fun padded buffer => ?_, fun o' text' bytes' halphabet h' padded => ?_⟩
  · have hengine : (engines.encodeInto o.alphabet padded).Lawful o.alphabet padded :=
      hlawful.select o.alphabet padded
    dsimp only
    rw [← encode_eq_canonical h padded]
    split_ifs with hshort
    · exact hengine.refuses.2 hshort
    · obtain ⟨⟨n, out⟩, hok⟩ := hengine.exists_ok_iff.2 (Nat.le_of_not_lt hshort)
      obtain ⟨hn, hout⟩ := hengine.writes hok
      rw [hok, hn, hout]
  · have hform := encode_eq_canonical h padded
    have hform' := encode_eq_canonical h' padded
    rw [halphabet] at hform'
    rw [← hform, ← hform']
    exact ⟨fun heq => congrArg _ heq, encode_injective⟩

/-- A relaxed text with a foreign byte, without padding and with the last four bits `0001`. It
decodes to the same byte as its canonical form. -/
theorem encodeInto_of_accepts_unused_bits :
    let o : Options := { isStrict := false }
    let text : Bytes := [81, 33, 82]
    (Accepts o text [65] ∧ Accepts {} [81, 81, 61, 61] [65]) ∧
      canonical .basic true text = [81, 81, 61, 61] ∧
      (∀ (padded : Bool) (buffer : Bytes),
        Engines.builtin.encodeInto o.alphabet padded [65] buffer =
          let form := canonical o.alphabet padded text
          if buffer.length < form.length then .error {}
          else .ok (form.length, buffer.overwrite form)) ∧
      ∀ (o' : Options) (text' bytes' : Bytes), o'.alphabet = o.alphabet →
        Accepts o' text' bytes' → ∀ padded : Bool,
          [65] = bytes' ↔
            canonical o.alphabet padded text = canonical o.alphabet padded text' := by
  have hrelaxed : Accepts { isStrict := false } [81, 33, 82] [65] :=
    ⟨[35], [], ⟨1, by decide +kernel⟩, ⟨0, by decide +kernel⟩, by decide +kernel⟩
  have hpadded : Accepts {} [81, 81, 61, 61] [65] :=
    ⟨[35], [], ⟨1, by decide +kernel⟩, ⟨0, by decide +kernel⟩, by decide +kernel⟩
  exact ⟨⟨hrelaxed, hpadded⟩, by decide +kernel, encodeInto_of_accepts lawful_builtin hrelaxed⟩

end TextCodec.Base64
