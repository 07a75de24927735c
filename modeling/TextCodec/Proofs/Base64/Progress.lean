import TextCodec.Base64.Stream
import TextCodec.Proofs.Base64.Failures

/-!
# Feeding text makes progress

At most one byte waits between two calls, so room for one byte is enough to go on. This holds of a
decoder after any calls, also where an end without room has dropped bits, and so it is said without
the content of the text: of the stages of the decoder (`Stage.read`) and of the number of its bits
(`FedFrom`).

1. Whether a byte of text is taken depends on the stage alone (`Decoder.stage_take`), and a byte of
   text brings at most six bits (`Decoder.size_take_le`).
2. A call that feeds text takes a part of it and stops for a byte that waits in front of a full
   buffer, takes all of it, or fails at a byte that is refused (`feed_fedFrom`).
3. So with room for a byte a call takes a byte of text.
4. A loop that feeds what is left goes on until nothing is left, and then ends the text, or stops at
   a call that fails (`Stream.Drives`). It makes at most one call for each byte of text
   (`Stream.Drives.calls_le`).
-/

namespace TextCodec.Base64

/-! ## Stages without bits -/

namespace Stage

/-- The stage after a byte of text. -/
def take (o : Options) (s : Stage) (b : UInt8) : Except Error Stage :=
  (({ options := o, stage := s } : Decoder).take b).map Decoder.stage

/-- The stage after a text, if all of its bytes are taken. -/
def read (o : Options) (s : Stage) : (text : Bytes) → Except Error Stage
  | [] => .ok s
  | b :: text =>
    match s.take o b with
    | .ok s => s.read o text
    | .error e => .error e

section

variable {o : Options} {s s' : Stage} {b : UInt8} {e : Error}

theorem read_cons_of_ok (h : s.take o b = .ok s') (text : Bytes) :
    s.read o (b :: text) = s'.read o text := by
  rw [read, h]

theorem read_cons_of_error (h : s.take o b = .error e) (text : Bytes) :
    s.read o (b :: text) = .error e := by
  rw [read, h]

/-- A text is read part by part. -/
theorem read_append {done : Bytes} (h : s.read o done = .ok s') (rest : Bytes) :
    s.read o (done ++ rest) = s'.read o rest := by
  induction done generalizing s with
  | nil =>
    cases h
    rfl
  | cons b done ih =>
    rw [List.cons_append]
    cases hb : s.take o b with
    | error e =>
      rw [read_cons_of_error hb] at h
      cases h
    | ok s₁ =>
      rw [read_cons_of_ok hb] at h ⊢
      exact ih h

end

end Stage

namespace Decoder

section Take

variable {d d' : Decoder} {b : UInt8}

/-- Whether a byte of text is taken does not depend on the bits that wait. -/
theorem stage_take (d : Decoder) (b : UInt8) :
    (d.take b).map Decoder.stage = d.stage.take d.options b := by
  unfold Stage.take take takeSymbol takePad
  cases d.options.alphabet.value? b with
  | some v => cases d.stage.count? <;> rfl
  | none =>
    dsimp only
    split_ifs
    · rcases d.stage with _ | _ | (_ | _ | _ | _ | n) | _ | _ | _ <;> rfl
    · rfl
    · rfl
    · rfl

theorem stage_take_of_ok (h : d.take b = .ok d') : d.stage.take d.options b = .ok d'.stage := by
  rw [← stage_take, h]
  rfl

theorem stage_take_of_error {e : Error} (h : d.take b = .error e) :
    d.stage.take d.options b = .error e := by
  rw [← stage_take, h]
  rfl

/-- A byte of text brings at most the six bits of a symbol. -/
theorem size_take_le (hb : d.reservoir.hasByte = false) (h : d.take b = .ok d') :
    d'.reservoir.size.toNat ≤ d.reservoir.size.toNat + 6 := by
  have hlt := Reservoir.size_lt_of_not_hasByte hb
  have hdrop := Reservoir.toNat_size_dropPartial d.reservoir
  unfold take takeSymbol takePad at h
  split at h
  · next v _ =>
    split at h <;> cases h
    exact Nat.le_of_eq (Reservoir.toNat_size_push (by omega) v)
  · split_ifs at h
    · split at h <;> cases h
      · dsimp only
        omega
      · dsimp only
        omega
      · exact Nat.le_add_right _ _
    · cases h
      exact Nat.le_add_right _ _

end Take

end Decoder

/-! ## One call -/

/-- What a call has done that took the part `done` of a text and left `rest`. -/
structure Taken (t : Transfer) (done rest : Bytes) (r : Outcome Progress) : Prop where
  read : t.decoder.stage.read t.decoder.options done = .ok r.decoder.stage
  wellFormed : r.decoder.reservoir.WellFormed
  /-- A byte of text brings at most six bits, and a byte in the buffer takes eight. -/
  balance : 8 * r.decoder.outputLength + r.decoder.reservoir.size.toNat ≤
    8 * t.sink.count + t.decoder.reservoir.size.toNat + 6 * done.length
  /-- Text is only left where a byte waits. -/
  blocked : rest ≠ [] → r.decoder.reservoir.hasByte = true
  /-- A byte waits only where the buffer is full. -/
  full : r.decoder.reservoir.hasByte = true → r.decoder.outputLength = t.sink.buffer.length

/-- What a call may come to that feeds `text` in the middle of a transfer, whatever the decoder has
read and written before. -/
inductive FedFrom (t : Transfer) (consumed : Nat) (text : Bytes) (r : Outcome Progress) : Prop
  /-- The call takes all of the text, or a part of it. -/
  | taken (done rest : Bytes) (split : text = done ++ rest)
    (result : r.result = .ok ⟨consumed + done.length, r.decoder.outputLength⟩)
    (taken : Taken t done rest r)
  /-- The text goes on with a byte that is refused. -/
  | refused (done rest : Bytes) (b : UInt8) (s : Stage) (e : Error)
    (split : text = done ++ b :: rest)
    (read : t.decoder.stage.read t.decoder.options done = .ok s)
    (error : s.take t.decoder.options b = .error e) (result : r.result = .error e)

section Feed

variable {t : Transfer} (h : t.decoder.reservoir.WellFormed)

include h

/-- Flushing moves bits to the buffer, eight a byte. -/
theorem balance_flush :
    8 * t.flush.sink.count + t.flush.decoder.reservoir.size.toNat =
      8 * t.sink.count + t.decoder.reservoir.size.toNat :=
  (Reservoir.drained h t.sink.written t.sink.room).size

theorem FedFrom.stop (consumed : Nat) {text : Bytes}
    (hblocked : text ≠ [] → t.flush.isBlocked = true) :
    FedFrom t consumed text (t.flush.stop (.ok ⟨consumed, t.flush.sink.count⟩)) := by
  refine .taken [] text rfl rfl ⟨rfl, Decoder.wellFormed_flush h, ?_, hblocked, fun hb => ?_⟩
  · exact Nat.le_of_eq (balance_flush h)
  · exact length_written_flush h hb

theorem FedFrom.cons {consumed : Nat} {b : UInt8} {text : Bytes} {d' : Decoder}
    {r : Outcome Progress} (hb : t.flush.decoder.reservoir.hasByte = false)
    (ht : t.flush.decoder.take b = .ok d')
    (hr : FedFrom ⟨d', t.flush.sink⟩ (consumed + 1) text r) :
    FedFrom t consumed (b :: text) r := by
  have hstage : t.decoder.stage.take t.decoder.options b = .ok d'.stage :=
    Decoder.stage_take_of_ok (d := t.flush.decoder) ht
  have hoptions : d'.options = t.decoder.options := Decoder.options_take (d := t.flush.decoder) ht
  cases hr with
  | taken done rest split result taken =>
    refine .taken (b :: done) rest (congrArg (b :: ·) split) ?_
      ⟨?_, taken.wellFormed, ?_, taken.blocked, fun hb' => ?_⟩
    · rw [result, List.length_cons, Nat.add_right_comm, Nat.add_assoc]
    · rw [Stage.read_cons_of_ok hstage, ← hoptions]
      exact taken.read
    · have hsize := Decoder.size_take_le hb ht
      have hflush := balance_flush h
      have hbalance := taken.balance
      rw [List.length_cons]
      dsimp only at hbalance
      omega
    · rw [taken.full hb']
      exact length_buffer_flush t
  | refused done rest b' s e split read error result =>
    rw [hoptions] at read error
    refine .refused (b :: done) rest b' s e (congrArg (b :: ·) split) ?_ error result
    rw [Stage.read_cons_of_ok hstage]
    exact read

end Feed

theorem feed_fedFrom (text : Bytes) {t : Transfer} (h : t.decoder.reservoir.WellFormed)
    (consumed : Nat) : FedFrom t consumed text (Decoder.feed t consumed text) := by
  induction text generalizing t consumed with
  | nil => exact .stop h consumed fun hne => absurd rfl hne
  | cons b text ih =>
    have hflush := Decoder.wellFormed_flush h
    unfold Decoder.feed
    by_cases hb : t.flush.isBlocked = true
    · rw [if_pos hb]
      exact .stop h consumed fun _ => hb
    · rw [if_neg hb]
      have hb' : t.flush.decoder.reservoir.hasByte = false := Bool.not_eq_true _ ▸ hb
      cases ht : t.flush.decoder.take b with
      | error e =>
        have hstage := Decoder.stage_take_of_error (d := t.flush.decoder) ht
        exact .refused [] text b _ e rfl rfl hstage rfl
      | ok d' => exact .cons h hb' ht (ih (Decoder.wellFormed_take hflush hb' ht) (consumed + 1))

namespace Decoder

section Convert

variable {d : Decoder} {buffer text : Bytes} {p : Progress}

theorem convert_fedFrom (h : d.reservoir.WellFormed) (hrefusal : d.refusal? = none)
    (buffer text : Bytes) :
    FedFrom ⟨d, .ofBuffer buffer⟩ 0 text (d.convert buffer text) := by
  unfold convert
  rw [hrefusal]
  exact feed_fedFrom text h 0

theorem wellFormed_convert (h : d.reservoir.WellFormed) (buffer text : Bytes) :
    (d.convert buffer text).decoder.reservoir.WellFormed :=
  invariant_wellFormed.call h (.convert buffer text)

/-- A decoder that feeds text takes calls. -/
theorem refusal?_of_convert (hp : (d.convert buffer text).result = .ok p) : d.refusal? = none := by
  unfold convert at hp
  split at hp
  · cases hp
  · assumption

/-- A call that succeeds has taken a part of the text. -/
theorem exists_taken (h : d.reservoir.WellFormed) (hp : (d.convert buffer text).result = .ok p) :
    ∃ done rest, text = done ++ rest ∧
      p = ⟨done.length, (d.convert buffer text).decoder.outputLength⟩ ∧
      Taken ⟨d, .ofBuffer buffer⟩ done rest (d.convert buffer text) := by
  cases convert_fedFrom h (refusal?_of_convert hp) buffer text with
  | taken done rest split result taken =>
    rw [hp, Nat.zero_add] at result
    exact ⟨done, rest, split, Except.ok.inj result, taken⟩
  | refused done rest b s e split read error result =>
    rw [hp] at result
    cases result

/-- Feeding text never fails for want of room. -/
theorem convert_ne_insufficientOutput (h : d.reservoir.WellFormed) (buffer text : Bytes) :
    (d.convert buffer text).result ≠ .error .insufficientOutput := by
  intro hr
  cases eq_finish_of_noRoom h (call_convert_eq_error_iff.2 hr)

/-- With room for a byte, the end of a text never fails for want of room. -/
theorem finish_ne_insufficientOutput (h : d.reservoir.WellFormed) (hbuffer : buffer ≠ []) :
    (d.finish buffer).result ≠ .error .insufficientOutput := by
  intro hr
  exact hbuffer (Call.finish.inj (eq_finish_of_noRoom h (call_finish_eq_error_iff.2 hr)))

section Success

variable (h : d.reservoir.WellFormed) (hp : (d.convert buffer text).result = .ok p)

include h hp

theorem consumed_le : p.consumed ≤ text.length := by
  obtain ⟨done, rest, rfl, rfl, -⟩ := exists_taken h hp
  rw [List.length_append]
  exact Nat.le_add_right _ _

/-- With room for a byte, a byte of text is taken. -/
theorem consumed_pos (hbuffer : buffer ≠ []) (htext : text ≠ []) : 0 < p.consumed := by
  obtain ⟨done, rest, rfl, rfl, taken⟩ := exists_taken h hp
  rw [List.length_pos_iff]
  rintro rfl
  have hbyte := taken.blocked htext
  -- A byte that waits behind one that was written needs sixteen bits, and there were only twelve.
  have hbalance := taken.balance
  have hwritten := taken.full hbyte
  have h8 := Reservoir.hasByte_iff.1 hbyte
  have hle := h.size_le
  have hpos := List.length_pos_iff.2 hbuffer
  rw [Sink.buffer_ofBuffer] at hwritten
  rw [Sink.count_ofBuffer, List.length_nil] at hbalance
  dsimp only at hbalance
  omega

/-- A call that leaves text has filled its buffer, and one byte waits. -/
theorem full_of_consumed_lt (hlt : p.consumed < text.length) :
    p.written = buffer.length ∧ (d.convert buffer text).decoder.reservoir.size.toNat / 8 = 1 := by
  obtain ⟨done, rest, hsplit, rfl, taken⟩ := exists_taken h hp
  have hrest : rest ≠ [] := by
    rintro rfl
    rw [hsplit, List.append_nil] at hlt
    exact absurd hlt (Nat.lt_irrefl _)
  have hbyte := taken.blocked hrest
  have h8 := Reservoir.hasByte_iff.1 hbyte
  have hle := taken.wellFormed.size_le
  have hfull := taken.full hbyte
  rw [Sink.buffer_ofBuffer] at hfull
  exact ⟨hfull, by omega⟩

end Success

end Convert

end Decoder

/-! ## Feeding until nothing is left -/

namespace Stream

/-- The stream after a call that feeds a text. -/
def convert (capacity : Nat) (s : Stream) (text : Bytes) : Stream :=
  let o := s.decoder.convert (emptyBuffer capacity) text
  { s.record o with calls := s.calls + 1 }

/-- How a stream is driven, of whose text these pieces are left. -/
inductive Drives (capacity : Nat) : Stream → List Bytes → Stream → Prop
  /-- Nothing is left, and the text is ended. -/
  | ended (s : Stream) :
    Drives capacity s [] (s.record (s.decoder.finish (emptyBuffer capacity)))
  /-- Nothing is left of a piece. -/
  | next {s s' : Stream} {pieces : List Bytes} (rest : Drives capacity s pieces s') :
    Drives capacity s ([] :: pieces) s'
  /-- A call that fails is the last one. -/
  | failed {s : Stream} {text : Bytes} {e : Error} (pieces : List Bytes) (nonempty : text ≠ [])
    (result : (s.decoder.convert (emptyBuffer capacity) text).result = .error e) :
    Drives capacity s (text :: pieces) (s.convert capacity text)
  /-- What a call leaves of a piece is fed again. -/
  | taken {s s' : Stream} {text : Bytes} {pieces : List Bytes} {p : Progress} (nonempty : text ≠ [])
    (result : (s.decoder.convert (emptyBuffer capacity) text).result = .ok p)
    (rest : Drives capacity (s.convert capacity text) (text.drop p.consumed :: pieces) s') :
    Drives capacity s (text :: pieces) s'

section

variable {capacity : Nat} {s s' : Stream} {pieces : List Bytes}

theorem emptyBuffer_ne_nil (hcapacity : 0 < capacity) : emptyBuffer capacity ≠ [] := by
  rw [← List.length_pos_iff, emptyBuffer, List.length_replicate]
  exact hcapacity

/-- The error of a stream is that of its last call. -/
theorem fault_record {α : Type} (s : Stream) (r : Outcome α) {e : Error} :
    (s.record r).fault = some e ↔ r.result = .error e := by
  unfold record
  cases r.result with
  | ok a => exact ⟨nofun, nofun⟩
  | error e' =>
    exact ⟨fun h => congrArg _ (Option.some.inj h), fun h => congrArg _ (Except.error.inj h)⟩

theorem fault_record_of_ok {α : Type} (s : Stream) {r : Outcome α} {a : α} (h : r.result = .ok a) :
    (s.record r).fault = none := by
  unfold record
  rw [h]

namespace Drives

theorem calls_le (hcapacity : 0 < capacity) (hd : Drives capacity s pieces s')
    (h : s.decoder.reservoir.WellFormed) : s'.calls ≤ s.calls + pieces.flatten.length := by
  have hbuffer := emptyBuffer_ne_nil hcapacity
  induction hd with
  | ended s => exact Nat.le_add_right _ _
  | next _ ih => exact ih h
  | @failed s text _ pieces nonempty =>
    have hpos := List.length_pos_iff.2 nonempty
    rw [List.flatten_cons, List.length_append]
    show s.calls + 1 ≤ _
    omega
  | @taken s s' text pieces p nonempty result _ ih =>
    have hcalls := ih (Decoder.wellFormed_convert h _ text)
    have hpos := Decoder.consumed_pos h result hbuffer nonempty
    have hle := Decoder.consumed_le h result
    have hone : (s.convert capacity text).calls = s.calls + 1 := rfl
    rw [List.flatten_cons, List.length_append] at hcalls ⊢
    rw [List.length_drop] at hcalls
    omega

/-- Neither the calls nor the end of the text fail for want of room. -/
theorem fault_ne (hcapacity : 0 < capacity) (hd : Drives capacity s pieces s')
    (h : s.decoder.reservoir.WellFormed) : s'.fault ≠ some .insufficientOutput := by
  have hbuffer := emptyBuffer_ne_nil hcapacity
  induction hd with
  | ended s => exact (fault_record s _).not.2 (Decoder.finish_ne_insufficientOutput h hbuffer)
  | next _ ih => exact ih h
  | @failed s text =>
    exact (fault_record s _).not.2 (Decoder.convert_ne_insufficientOutput h _ text)
  | @taken s s' text _ _ _ _ _ ih => exact ih (Decoder.wellFormed_convert h _ text)

end Drives

theorem wellFormed_feed (h : s.decoder.reservoir.WellFormed) (piece : Bytes) :
    (s.feed capacity piece).decoder.reservoir.WellFormed := by
  fun_induction feed capacity s piece with
  | case1 s => exact h
  | case2 s b text => exact Decoder.wellFormed_convert h _ (b :: text)
  | case3 s b text => exact Decoder.wellFormed_convert h _ (b :: text)
  | case4 s b text _ _ _ _ _ ih => exact ih (Decoder.wellFormed_convert h _ (b :: text))

/-- To drive a stream, feed a piece, and go on if that has not failed. -/
theorem drives_feed (hcapacity : 0 < capacity) (piece : Bytes)
    (h : s.decoder.reservoir.WellFormed) (hfault : s.fault = none)
    (hnone : (s.feed capacity piece).fault = none →
      Drives capacity (s.feed capacity piece) pieces s')
    (hsome : (s.feed capacity piece).fault.isSome = true → s.feed capacity piece = s') :
    Drives capacity s (piece :: pieces) s' := by
  have hbuffer := emptyBuffer_ne_nil hcapacity
  fun_induction feed capacity s piece with
  | case1 s => exact .next (hnone hfault)
  | case2 s b text o next e he =>
    have hlast : next.fault = some e := (fault_record s o).2 he
    have hstop : next = s' := hsome (by rw [hlast]; rfl)
    rw [← hstop]
    exact .failed pieces (List.cons_ne_nil b text) he
  | case3 s b text o next p hp hzero =>
    have hpos := Decoder.consumed_pos h hp hbuffer (List.cons_ne_nil b text)
    exact absurd hzero (Nat.pos_iff_ne_zero.1 hpos)
  | case4 s b text o next p hp hzero ih =>
    have hnext := Decoder.wellFormed_convert h (emptyBuffer capacity) (b :: text)
    exact .taken (List.cons_ne_nil b text) hp (ih hnext (fault_record_of_ok s hp) hnone hsome)

theorem drives_finish_feedAll (hcapacity : 0 < capacity) (pieces : List Bytes)
    (h : s.decoder.reservoir.WellFormed) (hfault : s.fault = none) :
    Drives capacity s pieces ((s.feedAll capacity pieces).finish capacity) := by
  induction pieces generalizing s with
  | nil =>
    unfold feedAll finish
    rw [hfault]
    exact .ended s
  | cons piece pieces ih =>
    unfold feedAll
    dsimp only
    refine drives_feed hcapacity piece h hfault (fun hnone => ?_) (fun hsome => ?_)
    · rw [if_neg (by rw [hnone]; nofun)]
      exact ih (wellFormed_feed h piece) hnone
    · rw [if_pos hsome]
      exact (if_pos hsome).symm

/-- What becomes of a stream that is driven with room for a byte. -/
structure Driven (capacity : Nat) (s : Stream) (pieces : List Bytes) (s' : Stream) : Prop where
  drives : Drives capacity s pieces s'
  calls_le : s'.calls ≤ s.calls + pieces.flatten.length
  fault_ne : s'.fault ≠ some .insufficientOutput

theorem driven_finish_feedAll (hcapacity : 0 < capacity) (pieces : List Bytes)
    (h : s.decoder.reservoir.WellFormed) (hfault : s.fault = none) :
    Driven capacity s pieces ((s.feedAll capacity pieces).finish capacity) := by
  have hdrives := drives_finish_feedAll hcapacity pieces h hfault
  exact ⟨hdrives, hdrives.calls_le hcapacity h, hdrives.fault_ne hcapacity h⟩

theorem calls_finish (s : Stream) : (s.finish capacity).calls = s.calls := by
  unfold finish
  split_ifs <;> rfl

/-- The error that stopped a stream stays. -/
theorem fault_finish_of_fault {e : Error} (h : s.fault = some e) :
    (s.finish capacity).fault = some e := by
  unfold finish
  rw [h]
  exact h

end

end Stream

/-- **Progress.** Whatever was called before, a call with room for a byte that succeeds takes a byte
of text, and a call that leaves text has filled its buffer, whatever its length, with one byte
waiting. So feeding what is left of each piece goes on until nothing is left, where the text is
ended, or a call fails. It takes at most one call for each byte of the text, and neither these calls
nor the end of the text fail for want of room. So it is when a new decoder decodes a whole text in
pieces of any size. -/
theorem progress_after (o : Options) (past : List Call) :
    let d := (Decoder.new o).after past
    (∀ buffer text p, (d.convert buffer text).result = .ok p →
      p.consumed ≤ text.length ∧ (buffer ≠ [] → text ≠ [] → 0 < p.consumed) ∧
        (p.consumed < text.length → p.written = buffer.length ∧
          (d.convert buffer text).decoder.reservoir.size.toNat / 8 = 1)) ∧
      (∀ capacity, 0 < capacity → ∀ pieces,
        let start : Stream := { decoder := d }
        let fed := start.feedAll capacity pieces
        Stream.Drives capacity start pieces (fed.finish capacity) ∧
          fed.calls ≤ pieces.flatten.length ∧
          fed.fault ≠ some .insufficientOutput ∧
          (fed.finish capacity).fault ≠ some .insufficientOutput) ∧
      ∀ capacity, 0 < capacity → ∀ size text,
        let whole := Stream.decode o size capacity text
        Stream.Drives capacity { decoder := .new o } (pieces size text) whole ∧
          whole.calls ≤ text.length ∧ whole.fault ≠ some .insufficientOutput := by
  intro d
  have h : d.reservoir.WellFormed := Decoder.wellFormed_after_new o past
  refine ⟨fun buffer text p hp => ⟨Decoder.consumed_le h hp, Decoder.consumed_pos h hp,
    Decoder.full_of_consumed_lt h hp⟩, fun capacity hcapacity pieces => ?_,
    fun capacity hcapacity size text => ?_⟩
  · intro start fed
    have hdriven := Stream.driven_finish_feedAll (s := start) hcapacity pieces h rfl
    have hcalls := hdriven.calls_le
    rw [Stream.calls_finish, Nat.zero_add] at hcalls
    exact ⟨hdriven.drives, hcalls,
      fun hfed => hdriven.fault_ne (Stream.fault_finish_of_fault hfed), hdriven.fault_ne⟩
  · have hnew := Decoder.wellFormed_after_new o []
    have hdriven := Stream.driven_finish_feedAll (s := { decoder := .new o }) hcapacity
      (pieces size text) hnew rfl
    have hcalls := hdriven.calls_le
    rw [flatten_pieces, Nat.zero_add] at hcalls
    exact ⟨hdriven.drives, hcalls, hdriven.fault_ne⟩

/-- After an end without room, the byte that waits is written, and then the second symbol leaves a
byte waiting and the third one is left. Two pieces of two symbols take three calls. -/
theorem progress_after_end_without_room :
    let o : Options := { isPadded := false }
    let past : List Call := [.convert [] [0x2F, 0x77], .finish []]
    let d := (Decoder.new o).after past
    let buffer : Bytes := [0x23]
    let text : Bytes := [0x41, 0x41, 0x41]
    let pieces : List Bytes := [[0x41, 0x41], [0x41, 0x41]]
    let start : Stream := { decoder := d }
    let fed := start.feedAll 1 pieces
    (d.convert buffer text).result = .ok ⟨2, 1⟩ ∧ 2 ≤ text.length ∧ 0 < 2 ∧
      (1 = buffer.length ∧ (d.convert buffer text).decoder.reservoir.size.toNat / 8 = 1) ∧
      (fed.calls = 3 ∧ fed.decoded = [0xFF, 0, 0] ∧ (fed.finish 1).decoded = [0xFF, 0, 0, 0] ∧
        (fed.finish 1).fault = none) ∧
      Stream.Drives 1 start pieces (fed.finish 1) ∧ fed.calls ≤ 4 ∧
        fed.fault ≠ some .insufficientOutput ∧ (fed.finish 1).fault ≠ some .insufficientOutput := by
  intro o past d buffer text pieces start fed
  have hp : (d.convert buffer text).result = .ok ⟨2, 1⟩ := by decide +kernel
  have hlt : 2 < text.length := by decide
  have hfed : fed.calls = 3 ∧ fed.decoded = [0xFF, 0, 0] ∧
      (fed.finish 1).decoded = [0xFF, 0, 0, 0] ∧ (fed.finish 1).fault = none := by
    decide +kernel
  obtain ⟨hcall, hloop, -⟩ := progress_after o past
  obtain ⟨hle, hpos, hfull⟩ := hcall buffer text ⟨2, 1⟩ hp
  exact ⟨hp, hle, hpos (List.cons_ne_nil _ _) (List.cons_ne_nil _ _), hfull hlt, hfed,
    hloop 1 Nat.one_pos pieces⟩

end TextCodec.Base64
