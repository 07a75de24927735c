import Mathlib.Tactic.Common
import Mathlib.Tactic.SplitIfs
import TextCodec.Proofs.Base64.Content
import TextCodec.Proofs.Base64.Reservoir

/-!
# What a decoder has read and written

`Tracks o d out c` says that a decoder `d` has read the content `c` and written `out` on the way:
its stage is that of the content, and the bits of `out` and of its reservoir together are those of
the symbols. The relation holds of a new decoder, and every call keeps it:

1. a byte of text moves decoder and content alike, or both refuse it (`take_tracks`);
2. flushing moves bits from the reservoir to the buffer (`flush_tracks`);
3. so a call that feeds text reads as much of it as there is room for (`convert_fed`), and a call
   that ends the text succeeds if the content is complete and there is room (`finish_ended`).
-/

namespace TextCodec.Base64

theorem Options.not_skips_pad (o : Options) : o.skips pad = false := by
  unfold skips Alphabet.isForeign
  rw [bne_self_eq_false, Bool.and_false]
  split_ifs
  · decide
  · rfl

/-- The decoder has read the content and written `out` on the way. -/
structure Tracks (o : Options) (d : Decoder) (out : Bytes) (c : Content) : Prop where
  options : d.options = o
  stage : d.stage = c.stage
  wellFormed : d.reservoir.WellFormed
  bits : Bits.ofBytes out ++ d.reservoir.toBits = c.kept

theorem tracks_new (o : Options) : Tracks o (.new o) [] {} :=
  ⟨rfl, rfl, Reservoir.wellFormed_empty, rfl⟩

namespace Tracks

variable {o : Options} {d : Decoder} {out : Bytes} {c : Content}

/-- What waits in the reservoir is the end of what the symbols encode. -/
theorem payload (h : Tracks o d out c) : c.payload = out ++ Bits.pack d.reservoir.toBits := by
  rw [← Content.pack_kept, ← h.bits, Bits.pack_append]

theorem payload_of_not_hasByte (h : Tracks o d out c) (hb : d.reservoir.hasByte = false) :
    c.payload = out := by
  rw [h.payload, Bits.pack_of_length_lt (Reservoir.length_toBits_lt hb), List.append_nil]

theorem refusal?_eq_none (h : Tracks o d out c) : d.refusal? = none := by
  unfold Decoder.refusal?
  rw [h.stage]
  unfold Content.stage
  split_ifs <;> rfl

/-! ## A byte of text -/

theorem takeSymbol (h : Tracks o d out c) (hb : d.reservoir.hasByte = false) {v : Nat} (hv : v < 64)
    (hp : c.pads = 0) : ∃ d', d.takeSymbol v = .ok d' ∧ Tracks o d' out (c.addSymbol v) := by
  unfold Decoder.takeSymbol
  rw [h.stage, Content.count?_stage, if_pos hp]
  refine ⟨_, rfl, h.options, (Content.stage_addSymbol hp v).symm, h.wellFormed.push hb hv, ?_⟩
  rw [Content.kept_addSymbol hp, ← h.bits, List.append_assoc,
    ← Reservoir.toBits_push h.wellFormed hv]

theorem takeSymbol_of_pads (h : Tracks o d out c) (v : Nat) (hp : c.pads ≠ 0) :
    d.takeSymbol v = .error .dataAfterPadding := by
  unfold Decoder.takeSymbol
  rw [h.stage, Content.count?_stage, if_neg hp]

/-- A `=` drops the bits beyond whole bytes. -/
theorem bits_dropPartial (h : Tracks o d out c) (hp : c.pads = 0) :
    Bits.ofBytes out ++ d.reservoir.dropPartial.toBits = c.addPad.kept := by
  have hbits := h.bits
  rw [Content.kept_of_pads_eq_zero hp] at hbits
  rw [Content.kept_addPad, ← hbits, Bits.take_ofBytes_append, Reservoir.toBits_dropPartial,
    Reservoir.length_toBits]

theorem takePad (h : Tracks o d out c) (ha : c.AwaitsPad) :
    ∃ d', d.takePad = .ok d' ∧ Tracks o d' out c.addPad := by
  unfold Decoder.takePad
  rw [h.stage]
  rcases ha with ⟨hp, hl⟩ | ⟨hp, hl⟩
  · have hne : c.values ≠ [] := by
      intro hnil
      rw [Content.lastGroup_of_nil hnil] at hl
      omega
    rw [Content.stage_of_symbols hp hne]
    rcases hl with hl | hl
    · rw [hl]
      exact ⟨_, rfl, h.options, (Content.stage_addPad_of_half hp hl).symm, h.wellFormed.dropPartial,
        h.bits_dropPartial hp⟩
    · rw [hl]
      exact ⟨_, rfl, h.options, (Content.stage_addPad_of_full (by omega)).symm,
        h.wellFormed.dropPartial, h.bits_dropPartial hp⟩
  · rw [Content.stage_of_half hp hl]
    refine ⟨_, rfl, h.options, (Content.stage_addPad_of_full (by omega)).symm, h.wellFormed, ?_⟩
    rw [Content.kept_addPad, ← Content.kept_of_pads_ne_zero (by omega)]
    exact h.bits

theorem takePad_of_not_awaitsPad (h : Tracks o d out c) (ha : ¬c.AwaitsPad) :
    d.takePad = .error .misplacedPadding := by
  have hlt := c.lastGroup_lt
  unfold Content.AwaitsPad at ha
  unfold Decoder.takePad
  rw [h.stage]
  by_cases hp : c.pads = 0
  · by_cases hnil : c.values = []
    · rw [Content.stage_of_nil hp hnil]
    · rw [Content.stage_of_symbols hp hnil]
      have hl : c.lastGroup = 0 ∨ c.lastGroup = 1 := by omega
      rcases hl with hl | hl <;> simp [hl]
  · rw [Content.stage_of_padded hp (by omega)]

end Tracks

/-- A byte moves decoder and content alike, or both refuse it. -/
theorem take_tracks {o : Options} {d : Decoder} {out : Bytes} {c : Content} (h : Tracks o d out c)
    (hb : d.reservoir.hasByte = false) (b : UInt8) :
    (∃ d' c', d.take b = .ok d' ∧ c.take o b = .ok c' ∧ Tracks o d' out c') ∨
      ∃ e, d.take b = .error e ∧ c.take o b = .error e := by
  unfold Decoder.take Content.take
  rw [h.options]
  cases hval : o.alphabet.value? b with
  | some v =>
    have hv : v < 64 := (Alphabet.value?_eq_some_iff.1 hval).1
    by_cases hp : c.pads = 0
    · obtain ⟨d', hd', ht⟩ := h.takeSymbol hb hv hp
      exact Or.inl ⟨d', _, hd', if_pos hp, ht⟩
    · exact Or.inr ⟨_, h.takeSymbol_of_pads v hp, if_neg hp⟩
  | none =>
    by_cases hpad : b = pad
    · subst hpad
      by_cases hpads : o.isPadded = true
      · by_cases ha : c.AwaitsPad
        · obtain ⟨d', hd', ht⟩ := h.takePad ha
          exact Or.inl ⟨d', _, by simpa [hpads] using hd', by simp [hpads, ha], ht⟩
        · have hd' := h.takePad_of_not_awaitsPad ha
          exact Or.inr ⟨_, by simpa [hpads] using hd', by simp [ha]⟩
      · exact Or.inr ⟨.misplacedPadding, by simp [hpads, o.not_skips_pad], by simp [hpads]⟩
    · by_cases hs : o.skips b = true
      · exact Or.inl ⟨d, c, by simp [hpad, hs], by simp [hpad, hs], h⟩
      · exact Or.inr ⟨.unrecognizedCharacter b, by simp [hpad, hs], by simp [hpad, hs]⟩

/-! ## Calls -/

/-- What a call wrote to its buffer. -/
def Outcome.output {α : Type} (r : Outcome α) : Bytes := r.buffer.take r.decoder.outputLength

theorem Transfer.output_close {α : Type} (t : Transfer) (stage : Stage) (result : Except Error α) :
    (t.close stage result).output = t.sink.written.toList := by
  unfold Outcome.output close Sink.buffer Sink.count
  rw [← Array.length_toList, List.take_left]

theorem Transfer.length_output_close {α : Type} (t : Transfer) (stage : Stage)
    (result : Except Error α) :
    (t.close stage result).output.length = (t.close stage result).decoder.outputLength := by
  rw [output_close, Array.length_toList]
  rfl

theorem length_output_feed (t : Transfer) (consumed : Nat) (text : Bytes) :
    (Decoder.feed t consumed text).output.length =
      (Decoder.feed t consumed text).decoder.outputLength := by
  induction text generalizing t consumed with
  | nil => exact Transfer.length_output_close _ _ _
  | cons b text ih =>
    unfold Decoder.feed
    dsimp only
    split_ifs
    · exact Transfer.length_output_close _ _ _
    · split
      · exact Transfer.length_output_close _ _ _
      · exact ih _ _

/-- A call that feeds text says how many bytes it wrote. -/
theorem length_output_convert (d : Decoder) (buffer text : Bytes) :
    (d.convert buffer text).output.length = (d.convert buffer text).decoder.outputLength := by
  unfold Decoder.convert
  dsimp only
  split
  · exact Transfer.length_output_close _ _ _
  · exact length_output_feed _ _ _

/-- Flushing moves bits from the reservoir to the buffer. -/
theorem flush_tracks {o : Options} {t : Transfer} {out : Bytes} {c : Content}
    (h : Tracks o t.decoder (out ++ t.sink.written.toList) c) :
    Tracks o t.flush.decoder (out ++ t.flush.sink.written.toList) c := by
  have hd := Reservoir.drained h.wellFormed t.sink.written t.sink.room
  refine ⟨h.options, h.stage, hd.wellFormed, ?_⟩
  rw [← h.bits, Bits.ofBytes_append, Bits.ofBytes_append, List.append_assoc, List.append_assoc]
  exact congrArg _ hd.bits

theorem length_buffer_flush (t : Transfer) :
    t.flush.sink.buffer.length = t.sink.buffer.length := by
  show (t.decoder.reservoir.drain t.sink.written t.sink.room).2.buffer.length = _
  rw [length_buffer_drain, Sink.buffer, List.length_append, Array.length_toList]

/-- A byte waits only if the buffer is full. -/
theorem length_written_flush {t : Transfer} (h : t.decoder.reservoir.WellFormed)
    (hb : t.flush.decoder.reservoir.hasByte = true) :
    t.flush.sink.written.toList.length = t.sink.buffer.length := by
  have hroom : t.flush.sink.room = [] := (Reservoir.drained h t.sink.written t.sink.room).room hb
  rw [← length_buffer_flush, Sink.buffer, hroom, List.append_nil]

/-- What a call that feeds `text` may come to, if before it `out` was written and `c` was read. -/
inductive Fed (o : Options) (out : Bytes) (c : Content) (consumed capacity : Nat) (text : Bytes)
    (r : Outcome Progress) : Prop
  /-- The call takes all of the text, or a part of it if a byte waits and the buffer is full. -/
  | taken (c' : Content) (done rest : Bytes) (split : text = done ++ rest)
    (read : c.scan o done = (c', none)) (tracks : Tracks o r.decoder (out ++ r.output) c')
    (result : r.result = .ok ⟨consumed + done.length, r.output.length⟩)
    (blocked : rest ≠ [] → r.decoder.reservoir.hasByte = true)
    (full : r.decoder.reservoir.hasByte = true → r.output.length = capacity)
  /-- The text goes on with a byte that is refused. All bytes before it have been written. -/
  | refused (c' : Content) (done rest : Bytes) (b : UInt8) (e : Error)
    (split : text = done ++ b :: rest) (read : c.scan o done = (c', none))
    (error : c'.take o b = .error e) (result : r.result = .error e)
    (stage : r.decoder.stage = .failed) (output : out ++ r.output = c'.payload)

section Feed

variable {o : Options} {out : Bytes} {c : Content}

/-- A byte waits only for a full buffer, and then the text encodes one byte more than was
written. -/
theorem Tracks.not_hasByte_of_room {α : Type} {r : Outcome α} {capacity : Nat}
    (h : Tracks o r.decoder (out ++ r.output) c)
    (hfull : r.decoder.reservoir.hasByte = true → r.output.length = capacity)
    (hroom : c.payload.length ≤ out.length + capacity) : r.decoder.reservoir.hasByte = false := by
  rw [← Bool.not_eq_true]
  intro hb
  have h8 := Reservoir.hasByte_iff.1 hb
  have hbytes := congrArg List.length h.payload
  rw [List.length_append, List.length_append, Bits.length_pack, Reservoir.length_toBits,
    hfull hb] at hbytes
  omega

theorem Transfer.stop_tracks {α : Type} {t : Transfer} (result : Except Error α)
    (h : Tracks o t.decoder (out ++ t.sink.written.toList) c) :
    Tracks o (t.stop result).decoder (out ++ (t.stop result).output) c := by
  unfold stop
  rw [output_close]
  exact ⟨h.options, h.stage, h.wellFormed, h.bits⟩

/-- A call that stops has read nothing more. -/
theorem Transfer.stop_fed {t : Transfer} (consumed : Nat) {capacity : Nat} {text : Bytes}
    (h : Tracks o t.decoder (out ++ t.sink.written.toList) c)
    (hblocked : text ≠ [] → t.isBlocked = true)
    (hfull : t.isBlocked = true → t.sink.written.toList.length = capacity) :
    Fed o out c consumed capacity text (t.stop (.ok ⟨consumed, t.sink.count⟩)) := by
  have hout := t.output_close t.decoder.stage (.ok (⟨consumed, t.sink.count⟩ : Progress))
  refine .taken c [] text rfl rfl (stop_tracks _ h) ?_ hblocked ?_
  · unfold stop
    rw [hout, Array.length_toList]
    rfl
  · intro hb
    unfold stop
    rw [hout]
    exact hfull hb

/-- A call that takes a byte goes on behind it. -/
theorem Fed.cons {c' : Content} {consumed capacity : Nat} {b : UInt8} {text : Bytes}
    {r : Outcome Progress} (hb : c.take o b = .ok c')
    (h : Fed o out c' (consumed + 1) capacity text r) :
    Fed o out c consumed capacity (b :: text) r := by
  cases h with
  | taken d done rest split read tracks result blocked full =>
    refine .taken d (b :: done) rest (by rw [split]; rfl) ?_ tracks ?_ blocked full
    · rw [Content.scan_cons_of_ok hb, read]
    · rw [result, List.length_cons, Nat.add_right_comm, Nat.add_assoc]
  | refused d done rest b' e split read error result stage output =>
    refine .refused d (b :: done) rest b' e (by rw [split]; rfl) ?_ error result stage output
    rw [Content.scan_cons_of_ok hb, read]

theorem feed_fed (text : Bytes) {t : Transfer} (consumed : Nat)
    (h : Tracks o t.decoder (out ++ t.sink.written.toList) c) :
    Fed o out c consumed t.sink.buffer.length text (Decoder.feed t consumed text) := by
  induction text generalizing t c consumed with
  | nil =>
    exact Transfer.stop_fed consumed (flush_tracks h) (fun hne => absurd rfl hne)
      (length_written_flush h.wellFormed)
  | cons b text ih =>
    have ht := flush_tracks h
    unfold Decoder.feed
    by_cases hb : t.flush.isBlocked = true
    · rw [if_pos hb]
      exact Transfer.stop_fed consumed ht (fun _ => hb) (length_written_flush h.wellFormed)
    · rw [if_neg hb]
      have hb' : t.flush.decoder.reservoir.hasByte = false := Bool.not_eq_true _ ▸ hb
      rcases take_tracks ht hb' b with ⟨d', c', hd, hc, ht'⟩ | ⟨e, hd, hc⟩
      · rw [hd]
        refine .cons hc ?_
        have hfed := ih (t := ⟨d', t.flush.sink⟩) (consumed + 1) ht'
        rwa [length_buffer_flush] at hfed
      · rw [hd]
        refine .refused c [] text b e rfl rfl hc rfl rfl ?_
        show out ++ (t.flush.close .failed (.error e)).output = _
        rw [Transfer.output_close, ht.payload_of_not_hasByte hb']

end Feed

/-- Feeding a piece of text reads as much of it as there is room for. -/
theorem convert_fed {o : Options} {d : Decoder} {out : Bytes} {c : Content} (h : Tracks o d out c)
    (buffer text : Bytes) : Fed o out c 0 buffer.length text (d.convert buffer text) := by
  have hfed := feed_fed (t := ⟨d, .ofBuffer buffer⟩) text 0 (by simpa [Sink.ofBuffer] using h)
  rw [Sink.buffer_ofBuffer] at hfed
  unfold Decoder.convert
  rw [h.refusal?_eq_none]
  exact hfed

/-! ## The end of the text -/

/-- What a call that ends the text may come to, if before it `out` was written and `c` was read. -/
inductive Ended (o : Options) (d : Decoder) (out : Bytes) (c : Content) (buffer : Bytes)
    (r : Outcome Nat) : Prop
  /-- The text is not complete. -/
  | refused (e : Error) (ending : c.ending? o = some e) (result : r.result = .error e)
    (stage : r.decoder.stage = .failed) (output : r.output = [])
  /-- A byte waits, and there is no room at all. -/
  | blocked (ending : c.ending? o = none) (result : r.result = .error .insufficientOutput)
    (stage : r.decoder.stage = d.stage) (waits : d.reservoir.hasByte = true) (room : buffer = [])
  /-- The text is complete, and the bytes that it encodes have been written. -/
  | complete (ending : c.ending? o = none) (result : r.result = .ok r.output.length)
    (stage : r.decoder.stage = .finished) (output : out ++ r.output = c.payload)

section Finish

variable {o : Options} {d : Decoder} {out : Bytes} {c : Content}

theorem Tracks.ending? (h : Tracks o d out c) : d.ending? = c.ending? o := by
  have hlt := c.lastGroup_lt
  unfold Decoder.ending? Content.ending?
  rw [h.stage, h.options]
  by_cases hp : c.pads = 0
  · rw [if_pos hp]
    by_cases hnil : c.values = []
    · rw [Content.stage_of_nil hp hnil, Content.lastGroup_of_nil hnil]
      rfl
    · rw [Content.stage_of_symbols hp hnil]
      have hl : c.lastGroup = 0 ∨ c.lastGroup = 1 ∨ c.lastGroup = 2 ∨ c.lastGroup = 3 := by omega
      rcases hl with hl | hl | hl | hl <;> simp [hl]
  · rw [if_neg hp]
    by_cases hhalf : c.pads = 1 ∧ c.lastGroup = 2
    · rw [if_pos hhalf, Content.stage_of_half hhalf.1 hhalf.2]
    · rw [if_neg hhalf, Content.stage_of_padded hp hhalf]

/-- Settling drops at most the bits beyond whole bytes, and those only before padding. -/
theorem Tracks.reservoir_settle (h : Tracks o d out c) :
    d.settle.reservoir = d.reservoir ∨
      c.pads = 0 ∧ d.settle.reservoir = d.reservoir.dropPartial := by
  have hlt := c.lastGroup_lt
  unfold Decoder.settle
  rw [h.stage]
  unfold Content.stage
  split_ifs with hp hnil
  · exact Or.inl rfl
  · have hl : c.lastGroup = 0 ∨ c.lastGroup = 1 ∨ c.lastGroup = 2 ∨ c.lastGroup = 3 := by omega
    rcases hl with hl | hl | hl | hl <;> rw [hl]
    · exact Or.inl rfl
    · exact Or.inl rfl
    · exact Or.inr ⟨hp, rfl⟩
    · exact Or.inr ⟨hp, rfl⟩
  · exact Or.inl rfl
  · exact Or.inl rfl

theorem stage_settle (d : Decoder) : d.settle.stage = d.stage := by
  unfold Decoder.settle
  split <;> rfl

theorem Decoder.wellFormed_settle (h : d.reservoir.WellFormed) :
    d.settle.reservoir.WellFormed := by
  unfold settle
  split
  · exact h.dropPartial
  · exact h.dropPartial
  · exact h

theorem Decoder.hasByte_settle (d : Decoder) :
    d.settle.reservoir.hasByte = d.reservoir.hasByte := by
  unfold settle
  split
  · exact Reservoir.hasByte_dropPartial _
  · exact Reservoir.hasByte_dropPartial _
  · rfl

theorem Tracks.pack_settle (h : Tracks o d out c) :
    Bits.pack (Bits.ofBytes out ++ d.settle.reservoir.toBits) = c.payload := by
  rcases h.reservoir_settle with hs | ⟨hp, hs⟩ <;> rw [hs]
  · rw [h.bits, Content.pack_kept]
  · rw [h.bits_dropPartial hp, Content.pack_kept]
    rfl

/-- Ending a complete text writes what still waits. -/
theorem finish_ended (h : Tracks o d out c) (buffer : Bytes) :
    Ended o d out c buffer (d.finish buffer) := by
  unfold Decoder.finish
  rw [h.refusal?_eq_none, h.ending?]
  cases hend : c.ending? o with
  | some e => exact .refused e hend rfl rfl (Transfer.output_close _ _ _)
  | none =>
    have hw := Decoder.wellFormed_settle h.wellFormed
    let t : Transfer := Transfer.flush ⟨d.settle, .ofBuffer buffer⟩
    show Ended o d out c buffer (if t.isBlocked then _ else _)
    by_cases hb : t.isBlocked = true
    · rw [if_pos hb]
      obtain rfl : buffer = [] := Reservoir.room_eq_nil_of_hasByte_drain hw hb
      exact .blocked hend rfl (stage_settle d) ((Decoder.hasByte_settle d).symm.trans hb) rfl
    · rw [if_neg hb]
      refine .complete hend ?_ rfl ?_
      · rw [Transfer.output_close, Array.length_toList]
        rfl
      · rw [Transfer.output_close, ← h.pack_settle]
        exact Reservoir.append_drain hw out buffer (Bool.not_eq_true _ ▸ hb)

end Finish

end TextCodec.Base64
