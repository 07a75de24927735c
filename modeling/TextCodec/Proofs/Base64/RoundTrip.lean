import TextCodec.Base64.Encoding
import TextCodec.Proofs.Base64.Language

/-!
# Encodings are decoded back

`sextets` lists the values of the symbols of an encoding: the bits of the bytes, six a symbol, with
zeros to fill up the last one. An encoding is these symbols and the padding that closes their row
(`encode_eq`), so it belongs to the language of every decoder that does not miss or refuse that
padding (`encodes_encode`), and its bits are those of the bytes (`flatMap_sextets`).

1. A buffer takes an encoding exactly if it has `encodedLength` bytes (`length_encode`).
2. However the encoding is cut and whatever room is given, no call fails, and at its end the
   decoder has written the bytes again (`Encodes.decodesTo`).
-/

namespace TextCodec.Base64

/-! ## The symbols of an encoding -/

/-- The values of the symbols of an encoding. -/
def sextets : Bytes → List Nat
  | x :: y :: z :: rest =>
    let n := x.toNat * 65536 + y.toNat * 256 + z.toNat
    n / 262144 :: n / 4096 % 64 :: n / 64 % 64 :: n % 64 :: sextets rest
  | [x, y] =>
    let n := x.toNat * 256 + y.toNat
    [n / 1024, n / 16 % 64, n % 16 * 4]
  | [x] => [x.toNat / 4, x.toNat % 4 * 16]
  | [] => []

/-- How many of `n` bytes are missing in the last group of three. -/
def missing (n : Nat) : Nat := (3 - n % 3) % 3

/-- The padding of the encoding of `n` bytes. -/
def padding (padded : Bool) (n : Nat) : Bytes :=
  if padded then List.replicate (missing n) pad else []

theorem encode_eq (a : Alphabet) (padded : Bool) (bytes : Bytes) :
    encode a padded bytes = (sextets bytes).map a.symbol ++ padding padded bytes.length := by
  induction bytes using sextets.induct with
  | case1 x y z rest ih =>
    have hlen : padding padded (x :: y :: z :: rest).length = padding padded rest.length := by
      unfold padding missing
      simp only [List.length_cons, Nat.add_assoc, Nat.add_mod_right]
    rw [encode, sextets, ih, hlen]
    rfl
  | case2 x y => cases padded <;> rfl
  | case3 x => cases padded <;> rfl
  | case4 => cases padded <;> rfl

theorem length_sextets (bytes : Bytes) : (sextets bytes).length = (4 * bytes.length + 2) / 3 := by
  induction bytes using sextets.induct with
  | case1 x y z rest ih =>
    simp only [sextets, List.length_cons, ih]
    omega
  | case2 x y => simp [sextets]
  | case3 x => simp [sextets]
  | case4 => rfl

theorem sextets_lt {bytes : Bytes} {v : Nat} (h : v ∈ sextets bytes) : v < 64 := by
  induction bytes using sextets.induct with
  | case1 x y z rest ih =>
    have hx := x.toNat_lt
    have hy := y.toNat_lt
    have hz := z.toNat_lt
    simp only [sextets, List.mem_cons] at h
    rcases h with rfl | rfl | rfl | rfl | h
    · omega
    · omega
    · omega
    · omega
    · exact ih h
  | case2 x y =>
    have hx := x.toNat_lt
    have hy := y.toNat_lt
    simp only [sextets, List.mem_cons, List.not_mem_nil, or_false] at h
    rcases h with rfl | rfl | rfl <;> omega
  | case3 x =>
    have hx := x.toNat_lt
    simp only [sextets, List.mem_cons, List.not_mem_nil, or_false] at h
    rcases h with rfl | rfl <;> omega
  | case4 => simp [sextets] at h

/-- The length of an encoding, if it is a number of 64 bits. -/
theorem length_encode {a : Alphabet} {padded : Bool} {bytes : Bytes}
    (h : (encode a padded bytes).length ≤ maxLength) :
    (encode a padded bytes).length = encodedLength bytes.length padded := by
  rw [encode_eq, List.length_append, List.length_map, length_sextets] at h ⊢
  unfold maxLength at h
  unfold encodedLength addLength maxLength
  cases padded with
  | false =>
    simp only [padding, Bool.false_eq_true, if_false, List.length_nil] at h ⊢
    split_ifs <;> omega
  | true =>
    simp only [padding, missing, if_true, List.length_replicate] at h ⊢
    omega

/-! ## The bits of an encoding -/

/-- The next six bits of a number, and those below. -/
theorem ofNat_six_append (k n : Nat) :
    Bits.ofNat 6 (n / 2 ^ k % 64) ++ Bits.ofNat k n = Bits.ofNat (6 + k) n := by
  rw [Bits.ofNat_add]
  congr 1
  exact Bits.ofNat_mod 6 (n / 2 ^ k)

theorem ofNat_zero (width : Nat) : Bits.ofNat width 0 = List.replicate width false := by
  induction width with
  | zero => rfl
  | succ width ih => rw [Bits.ofNat, Nat.zero_div, ih, List.replicate_succ']; rfl

/-- The last bits of a number, filled up with zeros. -/
theorem ofNat_filled (k fill n : Nat) :
    Bits.ofNat (k + fill) (n % 2 ^ k * 2 ^ fill) = Bits.ofNat k n ++ List.replicate fill false := by
  have h := Bits.ofNat_mul_add k fill (n % 2 ^ k) (Nat.two_pow_pos fill)
  rwa [Nat.add_zero, Bits.ofNat_mod, ofNat_zero] at h

section Groups

variable {n : Nat}

theorem flatMap_four (h : n < 2 ^ 24) :
    [n / 262144, n / 4096 % 64, n / 64 % 64, n % 64].flatMap (Bits.ofNat 6) =
      Bits.ofNat 24 n := by
  have h6 := ofNat_six_append 6 n
  have h12 := ofNat_six_append 12 n
  have h18 := ofNat_six_append 18 n
  rw [Nat.mod_eq_of_lt (by omega)] at h18
  rw [← h18, ← h12, ← h6, ← Bits.ofNat_mod 6 n]
  simp

theorem flatMap_three (h : n < 2 ^ 16) :
    [n / 1024, n / 16 % 64, n % 16 * 4].flatMap (Bits.ofNat 6) =
      Bits.ofNat 16 n ++ List.replicate 2 false := by
  have hlast := ofNat_filled 4 2 n
  have h4 := ofNat_six_append 4 n
  have h10 := ofNat_six_append 10 n
  rw [Nat.mod_eq_of_lt (by omega)] at h10
  rw [← h10, ← h4, List.append_assoc, List.append_assoc, ← hlast]
  simp

theorem flatMap_two (h : n < 2 ^ 8) :
    [n / 4, n % 4 * 16].flatMap (Bits.ofNat 6) =
      Bits.ofNat 8 n ++ List.replicate 4 false := by
  have hlast := ofNat_filled 2 4 n
  have h2 := ofNat_six_append 2 n
  rw [Nat.mod_eq_of_lt (by omega)] at h2
  rw [← h2, List.append_assoc, ← hlast]
  simp

end Groups

theorem ofNat_two_bytes (x y : UInt8) :
    Bits.ofNat 16 (x.toNat * 256 + y.toNat) = Bits.ofBytes [x, y] := by
  rw [Bits.ofBytes_cons, Bits.ofBytes_singleton]
  exact Bits.ofNat_mul_add 8 8 _ y.toNat_lt

theorem ofNat_three_bytes (x y z : UInt8) :
    Bits.ofNat 24 (x.toNat * 65536 + y.toNat * 256 + z.toNat) = Bits.ofBytes [x, y, z] := by
  have hsplit : x.toNat * 65536 + y.toNat * 256 + z.toNat =
      (x.toNat * 256 + y.toNat) * 2 ^ 8 + z.toNat := by omega
  rw [hsplit, Bits.ofNat_mul_add 16 8 _ z.toNat_lt, ofNat_two_bytes, ← Bits.ofBytes_singleton,
    ← Bits.ofBytes_append]
  rfl

/-- The symbols carry the bits of the bytes, and then zeros. -/
theorem flatMap_sextets (bytes : Bytes) : (sextets bytes).flatMap (Bits.ofNat 6) =
    Bits.ofBytes bytes ++ List.replicate (2 * missing bytes.length) false := by
  induction bytes using sextets.induct with
  | case1 x y z rest ih =>
    have hx := x.toNat_lt
    have hy := y.toNat_lt
    have hz := z.toNat_lt
    have hlen : missing (x :: y :: z :: rest).length = missing rest.length := by
      unfold missing
      simp only [List.length_cons, Nat.add_assoc, Nat.add_mod_right]
    have hgroup := flatMap_four
      (show x.toNat * 65536 + y.toNat * 256 + z.toNat < 2 ^ 24 by omega)
    rw [ofNat_three_bytes] at hgroup
    show ([_, _, _, _] ++ sextets rest).flatMap (Bits.ofNat 6) = _
    rw [List.flatMap_append, hgroup, ih, hlen, ← List.append_assoc, ← Bits.ofBytes_append]
    rfl
  | case2 x y =>
    have hx := x.toNat_lt
    have hy := y.toNat_lt
    rw [← ofNat_two_bytes]
    exact flatMap_three (by omega)
  | case3 x =>
    rw [Bits.ofBytes_singleton]
    exact flatMap_two x.toNat_lt
  | case4 => rfl

theorem pack_sextets (bytes : Bytes) :
    Bits.pack ((sextets bytes).flatMap (Bits.ofNat 6)) = bytes := by
  have hfill : (List.replicate (2 * missing bytes.length) false).length < 8 := by
    rw [List.length_replicate]
    unfold missing
    omega
  rw [flatMap_sextets, Bits.pack_append, Bits.pack_of_length_lt hfill, List.append_nil]

/-! ## The language -/

/-- Whether encodings with padding, or without, are read. -/
def Options.Reads (o : Options) (padded : Bool) : Prop :=
  if padded then o.isPadded = true else o.requiresPadding = false

instance (o : Options) (padded : Bool) : Decidable (o.Reads padded) := by
  unfold Options.Reads
  infer_instance

/-- A row of symbols and padding has no bytes that are skipped. -/
theorem significant_row (o : Options) {values : List Nat} (hv : ∀ v ∈ values, v < 64) (k : Nat) :
    significant o (values.map o.alphabet.symbol ++ List.replicate k pad) =
      values.map o.alphabet.symbol ++ List.replicate k pad := by
  unfold significant
  rw [List.filter_eq_self]
  intro b hb
  rw [decide_eq_true_iff, ← skips_iff]
  intro hs
  rcases List.mem_append.1 hb with hb | hb
  · obtain ⟨v, hmem, rfl⟩ := List.mem_map.1 hb
    have hnone := o.value?_of_skips hs
    rw [o.alphabet.value?_symbol (hv v hmem)] at hnone
    cases hnone
  · rw [List.eq_of_mem_replicate hb, o.not_skips_pad] at hs
    cases hs

theorem mayClose_padding {o : Options} {padded : Bool} (h : o.Reads padded) (bytes : Bytes) :
    MayClose o (sextets bytes).length (padding padded bytes.length) := by
  have hmod : bytes.length % 3 = 0 ∧ (sextets bytes).length % 4 = 0 ∨
      bytes.length % 3 = 1 ∧ (sextets bytes).length % 4 = 2 ∨
      bytes.length % 3 = 2 ∧ (sextets bytes).length % 4 = 3 := by
    have hlen : (sextets bytes).length =
        bytes.length / 3 * 4 + (4 * (bytes.length % 3) + 2) / 3 := by
      rw [length_sextets]
      omega
    have hlt : bytes.length % 3 = 0 ∨ bytes.length % 3 = 1 ∨ bytes.length % 3 = 2 := by omega
    rw [hlen]
    rcases hlt with hb | hb | hb <;> rw [hb] <;> omega
  unfold Options.Reads Options.requiresPadding at h
  unfold MayClose padding missing
  rcases hmod with ⟨hb, hs⟩ | ⟨hb, hs⟩ | ⟨hb, hs⟩ <;> rw [hb, hs] <;> cases padded <;>
    cases hp : o.isPadded <;> simp_all [List.replicate]

/-- An encoding is a text of the language of each decoder that reads its padding. -/
theorem encodes_encode {o : Options} {padded : Bool} (h : o.Reads padded) (bytes : Bytes) :
    Encodes o (encode o.alphabet padded bytes) (sextets bytes) := by
  refine ⟨fun v hv => sextets_lt hv, padding padded bytes.length, ?_, mayClose_padding h bytes⟩
  rw [encode_eq]
  unfold padding
  split_ifs
  · exact significant_row o (fun v hv => sextets_lt hv) _
  · exact significant_row o (fun v hv => sextets_lt hv) 0

/-! ## Decoding -/

/-- The text decodes to these bytes, however it is cut and whatever room is given. -/
structure DecodesTo (o : Options) (text bytes : Bytes) : Prop where
  /-- No call that feeds the text fails. -/
  feeding (schedule : List Feeding) :
    ((Stream.start o).follow text schedule).1.fault = none
  /-- A text that has been fed to its end is complete. -/
  ending (schedule : List Feeding) (last : Bytes) :
    let fed := ((Stream.start o).follow text schedule).1
    ((Stream.start o).follow text schedule).2 = [] →
      last ≠ [] ∨ fed.decoder.reservoir.hasByte = false →
        (fed.finishInto last).fault = none ∧
          (fed.finishInto last).decoder.stage = .finished ∧
          (fed.finishInto last).decoded = bytes
  /-- One call feeds the whole text if there is room for the bytes. -/
  once (buffer last : Bytes) : bytes.length ≤ buffer.length →
    (Stream.decodeOnce o buffer last text).fault = none ∧
      (Stream.decodeOnce o buffer last text).decoder.stage = .finished ∧
      (Stream.decodeOnce o buffer last text).decoded = bytes

section Decoding

variable {o : Options} {text : Bytes} {values : List Nat}

theorem Encodes.verdict (h : Encodes o text values) : verdict o text = none :=
  verdict_eq_none_iff.2 ⟨values, h⟩

/-- An encoding has no byte that is refused. -/
theorem Encodes.not_refused (h : Encodes o text values) {s : Stream} {c : Content} {e : Error}
    (hrefused : Stream.Refused o text s c e) : False := by
  obtain ⟨k, hscan, -⟩ := h.scan
  have hread := hrefused.read
  rw [hscan] at hread
  cases hread

theorem Encodes.follow_running (h : Encodes o text values) (schedule : List Feeding) :
    ∃ c, Stream.Running o text ((Stream.start o).follow text schedule).1
      ((Stream.start o).follow text schedule).2 c := by
  rcases Stream.follow_running schedule (Stream.running_start o rfl) with hrun | ⟨c, e, hrefused⟩
  · exact hrun
  · exact (h.not_refused hrefused).elim

/-- A stream that ends as an encoding does has decoded it. -/
theorem Encodes.ends (h : Encodes o text values) {fed s : Stream}
    (hends : Stream.Ends o text fed s) :
    s.fault = none ∧ s.decoder.stage = .finished ∧
      s.decoded = Bits.pack (values.flatMap (Bits.ofNat 6)) := by
  have hfault : s.fault = none := hends.fault.trans h.verdict
  refine ⟨hfault, ?_, (hends.decoded (Or.inl hfault)).trans h.payload⟩
  rw [hends.stage, h.verdict]
  rfl

/-- What a part of an encoding encodes is no longer than what the whole does. -/
theorem Encodes.length_payload_le (h : Encodes o text values) {c : Content} {done rest : Bytes}
    (split : text = done ++ rest) (read : ({} : Content).scan o done = (c, none)) :
    c.payload.length ≤ (Bits.pack (values.flatMap (Bits.ofNat 6))).length := by
  obtain ⟨k, hscan, -⟩ := h.scan
  rw [split, Content.scan_append_of_none read] at hscan
  have hle : c.values.length ≤ values.length := Content.le_length_values_scan hscan
  have hall : (Bits.pack (values.flatMap (Bits.ofNat 6))).length = 6 * values.length / 8 :=
    Content.length_payload ⟨values, 0⟩
  rw [hall, Content.length_payload]
  omega

theorem Encodes.decodesTo (h : Encodes o text values) :
    DecodesTo o text (Bits.pack (values.flatMap (Bits.ofNat 6))) := by
  refine ⟨fun schedule => ?_, fun schedule last => ?_, fun buffer last hroom => ?_⟩
  · obtain ⟨c, hrun⟩ := h.follow_running schedule
    exact hrun.fault
  · intro fed hrest hlast
    obtain ⟨c, hrun⟩ := h.follow_running schedule
    rw [hrest] at hrun
    exact h.ends (hrun.ends hlast)
  · have hfed : (∃ c, Stream.Running o text _ [] c ∧ _) ∨ ∃ c e, Stream.Refused o text _ c e :=
      Stream.feedOnce_running_of_room fun c done rest split read =>
        Nat.le_trans (h.length_payload_le split read) hroom
    rcases hfed with ⟨c, hrun, hfree⟩ | ⟨c, e, hrefused⟩
    · exact h.ends (hrun.ends (Or.inr hfree))
    · exact (h.not_refused hrefused).elim

end Decoding

/-! ## Engines -/

/-- The engine writes the encoding and leaves the rest of the buffer as it is. It refuses exactly
the buffers that are shorter than the encoding. -/
structure Engine.Lawful (e : Engine) (a : Alphabet) (padded : Bool) : Prop where
  refuses {bytes buffer : Bytes} :
    e bytes buffer = .error {} ↔ buffer.length < (encode a padded bytes).length
  writes {bytes buffer out : Bytes} {n : Nat} : e bytes buffer = .ok (n, out) →
    n = (encode a padded bytes).length ∧ out = buffer.overwrite (encode a padded bytes)

/-- Each engine is lawful for its alphabet and padding. -/
structure Engines.Lawful (engines : Engines) : Prop where
  standard : engines.standard.Lawful .basic true
  standardUnpadded : engines.standardUnpadded.Lawful .basic false
  urlSafe : engines.urlSafe.Lawful .url true
  urlSafeUnpadded : engines.urlSafeUnpadded.Lawful .url false

theorem lawful_engine (a : Alphabet) (padded : Bool) : (engine a padded).Lawful a padded := by
  constructor
  · intro bytes buffer
    unfold engine
    dsimp only
    split_ifs with h <;> simp [h]
  · intro bytes buffer out n h
    unfold engine at h
    dsimp only at h
    split_ifs at h
    cases h
    exact ⟨rfl, rfl⟩

theorem lawful_builtin : Engines.builtin.Lawful :=
  ⟨lawful_engine _ _, lawful_engine _ _, lawful_engine _ _, lawful_engine _ _⟩

theorem Engines.Lawful.select {engines : Engines} (h : engines.Lawful) (a : Alphabet)
    (padded : Bool) : (engines.select a padded).Lawful a padded := by
  cases a <;> cases padded
  · exact h.standardUnpadded
  · exact h.standard
  · exact h.urlSafeUnpadded
  · exact h.urlSafe

section Engine

variable {e : Engine} {a : Alphabet} {padded : Bool} {bytes buffer : Bytes}

/-- An engine succeeds exactly if the buffer takes the encoding. -/
theorem Engine.Lawful.exists_ok_iff (h : e.Lawful a padded) :
    (∃ r, e bytes buffer = .ok r) ↔ (encode a padded bytes).length ≤ buffer.length := by
  rw [← Nat.not_lt, ← h.refuses]
  cases e bytes buffer <;> simp

/-- After a success the encoding stands at the front of the buffer. -/
theorem Engine.Lawful.buffer_of_ok (h : e.Lawful a padded) {n : Nat} {out : Bytes}
    (hok : e bytes buffer = .ok (n, out)) :
    out = encode a padded bytes ++ buffer.drop n ∧ n = (encode a padded bytes).length := by
  obtain ⟨hn, hout⟩ := h.writes hok
  rw [Bytes.overwrite_of_length_le (h.exists_ok_iff.1 ⟨_, hok⟩)] at hout
  rw [hn]
  exact ⟨hout, rfl⟩

end Engine

/-- **Encodings are decoded back.** Encoding succeeds exactly if the buffer has `encodedLength`
bytes. It writes that many, leaves the rest of the buffer as it is, and what it writes decodes to
the bytes again in each mode that reads the padding. -/
theorem decodesTo_encodeInto {engines : Engines} (hlawful : engines.Lawful) (a : Alphabet)
    (padded : Bool) (bytes buffer : Bytes) (hlen : (encode a padded bytes).length ≤ maxLength) :
    ((∃ r, engines.encodeInto a padded bytes buffer = .ok r) ↔
        encodedLength bytes.length padded ≤ buffer.length) ∧
      ∀ n out, engines.encodeInto a padded bytes buffer = .ok (n, out) →
        n = encodedLength bytes.length padded ∧ out.length = buffer.length ∧
          out.drop n = buffer.drop n ∧
          ∀ o : Options, o.alphabet = a → o.Reads padded → DecodesTo o (out.take n) bytes := by
  have hengine : (engines.encodeInto a padded).Lawful a padded := hlawful.select a padded
  refine ⟨by rw [hengine.exists_ok_iff, length_encode hlen], fun n out hok => ?_⟩
  obtain ⟨hout, hn⟩ := hengine.buffer_of_ok hok
  have hroom := hengine.exists_ok_iff.1 ⟨_, hok⟩
  refine ⟨hn.trans (length_encode hlen), ?_, ?_, ?_⟩
  · rw [hout, List.length_append, List.length_drop]
    omega
  · rw [hout, hn, List.drop_left]
  · rintro o rfl hreads
    have htext : out.take n = encode o.alphabet padded bytes := by
      rw [hout, hn, List.take_left]
    have hdecodes := (encodes_encode hreads bytes).decodesTo
    rwa [pack_sextets, ← htext] at hdecodes

/-- Two bytes without padding, in a buffer that is longer than their encoding. -/
theorem decodesTo_two_bytes_unpadded :
    let bytes : Bytes := [255, 239]
    let buffer : Bytes := [35, 35, 35, 35]
    (encode .url false bytes).length ≤ maxLength ∧
      Engines.builtin.encodeInto .url false bytes buffer = .ok (3, [95, 45, 56, 35]) ∧
      ((∃ r, Engines.builtin.encodeInto .url false bytes buffer = .ok r) ↔
        encodedLength bytes.length false ≤ buffer.length) ∧
      ∀ n out, Engines.builtin.encodeInto .url false bytes buffer = .ok (n, out) →
        n = encodedLength bytes.length false ∧ out.length = buffer.length ∧
          out.drop n = buffer.drop n ∧
          ∀ o : Options, o.alphabet = .url → o.Reads false → DecodesTo o (out.take n) bytes :=
  ⟨by decide +kernel, by decide +kernel,
    decodesTo_encodeInto lawful_builtin .url false [255, 239] [35, 35, 35, 35]
      (by decide +kernel)⟩

end TextCodec.Base64
