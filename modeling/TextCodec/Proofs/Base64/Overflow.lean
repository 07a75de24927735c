import TextCodec.Base64.Length
import TextCodec.Proofs.Base64.Sessions
import TextCodec.Proofs.Success

/-!
# Words of a decoder

A decoder keeps its bits in a word of 32 bits, their number in a word of 8 bits, and counts bytes
with words of 64 bits. Nothing in it notices a sum or a difference that wraps around, or a shift
that drops bits.

`Decoder.session?` is a session in which all of them have to fit, and in which the decoder has to
meet its assertions after every byte of text and after every call. It gives no answers where one of
these does not hold. No session comes to that (`Decoder.session?_eq`), because the decoder is
`Sound` after every step.
-/

namespace TextCodec.Base64

/-! ## Operations that have to fit -/

namespace Word

/-- A number below a bound. -/
def below? (bound n : Nat) : Option Nat := if n < bound then some n else none

/-- The sum, unless it wraps around. -/
def add8? (x y : UInt8) : Option UInt8 := if x.toNat + y.toNat < 2 ^ 8 then some (x + y) else none

/-- The difference, unless it wraps around. -/
def sub8? (x y : UInt8) : Option UInt8 := if y.toNat ≤ x.toNat then some (x - y) else none

/-- The difference, unless it wraps around. -/
def sub32? (x y : UInt32) : Option UInt32 := if y.toNat ≤ x.toNat then some (x - y) else none

/-- The shifted word, unless it drops a bit. -/
def shiftLeft32? (x n : UInt32) : Option UInt32 :=
  if x.toNat * 2 ^ n.toNat < 2 ^ 32 then some (x <<< n) else none

/-- The next number of bytes, unless it wraps around. -/
def nextLength? (n : Nat) : Option Nat := below? (maxLength + 1) (n + 1)

theorem nextLength?_eq {n : Nat} (h : n < maxLength) : nextLength? n = some (n + 1) :=
  if_pos (Nat.succ_lt_succ h)

end Word

namespace Reservoir

def push? (r : Reservoir) (value : Nat) : Option Reservoir := do
  let bits ← Word.shiftLeft32? r.bits 6
  let size ← Word.add8? r.size 6
  return { bits := bits ||| UInt32.ofNat value, size }

def dropPartial? (r : Reservoir) : Option Reservoir := do
  let size ← Word.sub8? r.size (r.size % 8)
  return { bits := r.bits >>> (r.size % 8).toUInt32, size }

/-- The first eight bits, and what is left without them. -/
def takeByte? (r : Reservoir) : Option (UInt8 × Reservoir) := do
  let size ← Word.sub8? r.size 8
  let one ← Word.shiftLeft32? 1 size.toUInt32
  let mask ← Word.sub32? one 1
  return ((r.bits >>> size.toUInt32).toUInt8, { bits := r.bits &&& mask, size })

def drain? (r : Reservoir) (written : Array UInt8) : (room : Bytes) → Option (Reservoir × Sink)
  | [] => some (r, ⟨written, []⟩)
  | old :: room =>
    if r.hasByte then do
      let (b, rest) ← r.takeByte?
      let _ ← Word.nextLength? written.size
      rest.drain? (written.push b) room
    else some (r, ⟨written, old :: room⟩)

section

variable {r : Reservoir} (h : r.WellFormed)

include h

theorem push?_eq (value : Nat) : r.push? value = some (r.push value) := by
  have hs := h.size_le
  have hb := h.bits_lt_pow
  have h6 : (6 : UInt8).toNat = 6 := rfl
  have h6' : (6 : UInt32).toNat = 6 := rfl
  have hbits : Word.shiftLeft32? r.bits 6 = some (r.bits <<< 6) := by
    apply if_pos
    rw [h6']
    omega
  have hsize : Word.add8? r.size 6 = some (r.size + 6) := if_pos (by omega)
  unfold push?
  rw [bind_of_eq_some hbits, bind_of_eq_some hsize]
  rfl

omit h in
theorem dropPartial?_eq (r : Reservoir) : r.dropPartial? = some r.dropPartial := by
  have hsize : Word.sub8? r.size (r.size % 8) = some (r.size - r.size % 8) := by
    apply if_pos
    rw [UInt8.toNat_mod]
    exact Nat.mod_le _ _
  unfold dropPartial?
  rw [bind_of_eq_some hsize]
  rfl

theorem takeByte?_eq (hb : r.hasByte = true) :
    r.takeByte? = some (r.firstByte, r.dropByte) := by
  have h8 := hasByte_iff.1 hb
  have hs := h.size_le
  have hone := toNat_one_shiftLeft h8 (by omega)
  have hpos : 0 < 2 ^ (r.size.toNat - 8) := Nat.two_pow_pos _
  have hsize : Word.sub8? r.size 8 = some (r.size - 8) := if_pos h8
  have hword : Word.shiftLeft32? 1 (r.size - 8).toUInt32 = some (1 <<< (r.size - 8).toUInt32) := by
    have hn : (r.size - 8).toUInt32.toNat = r.size.toNat - 8 :=
      (UInt8.toNat_toUInt32 _).trans (toNat_size_dropByte h8)
    apply if_pos
    rw [hn]
    calc 1 * 2 ^ (r.size.toNat - 8) ≤ 1 * 2 ^ 4 :=
          Nat.mul_le_mul_left 1 (Nat.pow_le_pow_right (by decide) (by omega))
      _ < 2 ^ 32 := by decide
  have hmask : Word.sub32? (1 <<< (r.size - 8).toUInt32) 1 =
      some (1 <<< (r.size - 8).toUInt32 - 1) := by
    apply if_pos
    rw [hone]
    exact hpos
  unfold takeByte?
  rw [bind_of_eq_some hsize, bind_of_eq_some hword, bind_of_eq_some hmask]
  rfl

/-- Draining counts no further than the buffer is long. -/
theorem drain?_eq (written : Array UInt8) {room : Bytes}
    (hlen : written.size + room.length ≤ maxLength) :
    r.drain? written room = some (r.drain written room) := by
  induction room generalizing r written with
  | nil => rfl
  | cons old room ih =>
    rw [List.length_cons] at hlen
    unfold drain? drain
    by_cases hb : r.hasByte = true
    · rw [if_pos hb, if_pos hb, bind_of_eq_some (takeByte?_eq h hb)]
      dsimp only
      rw [bind_of_eq_some (Word.nextLength?_eq (by omega))]
      refine ih (h.dropByte hb) (written.push r.firstByte) ?_
      rw [Array.size_push]
      omega
    · rw [if_neg hb, if_neg hb]

end

end Reservoir

/-! ## Assertions -/

/-- A group has at most four symbols, of which the fourth counts as none of the next. -/
def Stage.InGroup : Stage → Prop
  | symbols n => n ≤ 3
  | _ => True

instance : DecidablePred Stage.InGroup
  | .symbols n => inferInstanceAs (Decidable (n ≤ 3))
  | .failed | .initial | .halfPadded | .padded | .finished => inferInstanceAs (Decidable True)

namespace Decoder

/-- What a decoder asserts: at most one byte and one symbol wait, and the stage is one of a
group. -/
def Asserts (d : Decoder) : Prop := d.reservoir.size.toNat < 14 ∧ d.stage.InGroup

instance : DecidablePred Asserts := fun _ => inferInstanceAs (Decidable (_ ∧ _))

/-- The decoder, if it meets its assertions. -/
def assert? (d : Decoder) : Option Decoder := if d.Asserts then some d else none

/-- What holds of a decoder after every step. -/
structure Sound (d : Decoder) : Prop where
  wellFormed : d.reservoir.WellFormed
  inGroup : d.stage.InGroup

theorem Sound.asserts {d : Decoder} (h : d.Sound) : d.Asserts :=
  ⟨Nat.lt_of_le_of_lt h.wellFormed.size_le (by decide), h.inGroup⟩

theorem Sound.assert?_eq {d : Decoder} (h : d.Sound) : d.assert? = some d := if_pos h.asserts

/-! ## Steps -/

def takeSymbol? (d : Decoder) (value : Nat) : Option (Except Error Decoder) :=
  match d.stage.count? with
  | some n => do
    let reservoir ← d.reservoir.push? value
    let next ← Word.below? (2 ^ 8) (n + 1)
    return .ok { d with stage := .symbols (next % 4), reservoir }
  | none => some (.error .dataAfterPadding)

def takePad? (d : Decoder) : Option (Except Error Decoder) :=
  match d.stage with
  | .symbols 2 => do
    let reservoir ← d.reservoir.dropPartial?
    return .ok { d with stage := .halfPadded, reservoir }
  | .symbols 3 => do
    let reservoir ← d.reservoir.dropPartial?
    return .ok { d with stage := .padded, reservoir }
  | .halfPadded => some (.ok { d with stage := .padded })
  | _ => some (.error .misplacedPadding)

def take? (d : Decoder) (b : UInt8) : Option (Except Error Decoder) :=
  match d.options.alphabet.value? b with
  | some value => d.takeSymbol? value
  | none =>
    if b = pad ∧ d.options.isPadded then d.takePad?
    else if d.options.skips b then some (.ok d)
    else if b = pad then some (.error .misplacedPadding)
    else some (.error (.unrecognizedCharacter b))

def settle? (d : Decoder) : Option Decoder :=
  match d.stage with
  | .symbols 2 | .symbols 3 => do return { d with reservoir := ← d.reservoir.dropPartial? }
  | _ => some d

end Decoder

def Transfer.flush? (t : Transfer) : Option Transfer := do
  let (reservoir, sink) ← t.decoder.reservoir.drain? t.sink.written t.sink.room
  return { decoder := { t.decoder with reservoir }, sink }

namespace Decoder

def feed? (t : Transfer) (consumed : Nat) : (text : Bytes) → Option (Outcome Progress)
  | [] => do
    let t ← t.flush?
    return t.stop (.ok ⟨consumed, t.sink.count⟩)
  | b :: text => do
    let t ← t.flush?
    if t.isBlocked then return t.stop (.ok ⟨consumed, t.sink.count⟩)
    else
      let next ← Word.nextLength? consumed
      match ← t.decoder.take? b with
      | .error e => return t.fail e
      | .ok decoder => feed? { t with decoder := ← decoder.assert? } next text

def convert? (d : Decoder) (buffer text : Bytes) : Option (Outcome Progress) :=
  let t : Transfer := ⟨d, .ofBuffer buffer⟩
  match d.refusal? with
  | some e => some (t.fail e)
  | none => feed? t 0 text

def finish? (d : Decoder) (buffer : Bytes) : Option (Outcome Nat) :=
  let t : Transfer := ⟨d, .ofBuffer buffer⟩
  match d.refusal?, d.ending? with
  | some e, _ => some (t.fail e)
  | none, some e => some (t.fail e)
  | none, none => do
    let t ← Transfer.flush? { t with decoder := ← d.settle? }
    return if t.isBlocked then t.stop (.error .insufficientOutput)
      else t.close .finished (.ok t.sink.count)

def call? (d : Decoder) : Call → Option (Outcome Answer)
  | .convert buffer text => do
    let o ← d.convert? buffer text
    return { o with result := o.result.map .converted }
  | .finish buffer => do
    let o ← d.finish? buffer
    return { o with result := o.result.map .finished }
  | .reset => some { decoder := d.reset, buffer := [], result := .ok .reset }

def session? (d : Decoder) : List Call → Option (List (Outcome Answer))
  | [] => some []
  | c :: calls => do
    let o ← d.call? c
    let next ← o.decoder.assert?
    return o :: (← next.session? calls)

end Decoder

/-! ## Every step fits -/

/-- The texts and buffers of a call are no longer than any in memory. -/
def Call.Fits : Call → Prop
  | convert buffer text => buffer.length ≤ maxLength ∧ text.length ≤ maxLength
  | finish buffer => buffer.length ≤ maxLength
  | reset => True

instance : DecidablePred Call.Fits
  | .convert _ _ => inferInstanceAs (Decidable (_ ∧ _))
  | .finish _ => inferInstanceAs (Decidable (_ ≤ _))
  | .reset => inferInstanceAs (Decidable True)

theorem Transfer.flush?_eq {t : Transfer} (h : t.decoder.reservoir.WellFormed)
    (hlen : t.sink.buffer.length ≤ maxLength) : t.flush? = some t.flush := by
  unfold Sink.buffer at hlen
  rw [List.length_append, Array.length_toList] at hlen
  unfold flush?
  rw [bind_of_eq_some (Reservoir.drain?_eq h t.sink.written hlen)]
  rfl

namespace Decoder

section Steps

variable {d d' : Decoder}

theorem takeSymbol?_eq (h : d.Sound) (v : Nat) : d.takeSymbol? v = some (d.takeSymbol v) := by
  have hgroup := h.inGroup
  unfold takeSymbol? takeSymbol
  cases hstage : d.stage with
  | initial => exact bind_of_eq_some (Reservoir.push?_eq h.wellFormed v) _
  | symbols n =>
    rw [hstage] at hgroup
    have hn : n ≤ 3 := hgroup
    refine (bind_of_eq_some (Reservoir.push?_eq h.wellFormed v) _).trans ?_
    exact bind_of_eq_some (if_pos (show n + 1 < 2 ^ 8 by omega)) _
  | failed => rfl
  | halfPadded => rfl
  | padded => rfl
  | finished => rfl

theorem takePad?_eq (d : Decoder) : d.takePad? = some d.takePad := by
  unfold takePad? takePad
  rw [Reservoir.dropPartial?_eq]
  rcases d.stage with _ | _ | (_ | _ | _ | _ | n) | _ | _ | _ <;> rfl

theorem take?_eq (h : d.Sound) (b : UInt8) : d.take? b = some (d.take b) := by
  unfold take? take
  cases d.options.alphabet.value? b with
  | some value => exact takeSymbol?_eq h value
  | none =>
    rw [takePad?_eq]
    dsimp only
    split_ifs <;> rfl

theorem settle?_eq (d : Decoder) : d.settle? = some d.settle := by
  unfold settle? settle
  rw [Reservoir.dropPartial?_eq]
  rcases d.stage with _ | _ | (_ | _ | _ | _ | n) | _ | _ | _ <;> rfl

theorem inGroup_take {b : UInt8} (h : d.stage.InGroup) (ht : d.take b = .ok d') :
    d'.stage.InGroup := by
  unfold take takeSymbol takePad at ht
  split at ht
  · split at ht <;> cases ht
    exact Nat.le_of_lt_succ (Nat.mod_lt _ (by decide))
  · split_ifs at ht
    · split at ht <;> cases ht <;> trivial
    · cases ht
      exact h

/-- A decoder is sound after every step. -/
theorem invariant_sound : Invariant Sound where
  reset _ := ⟨Reservoir.wellFormed_empty, trivial⟩
  take h hb ht := ⟨invariant_wellFormed.take h.wellFormed hb ht, inGroup_take h.inGroup ht⟩
  settle {d} h := ⟨invariant_wellFormed.settle h.wellFormed, (stage_settle d).symm ▸ h.inGroup⟩
  flush h := ⟨invariant_wellFormed.flush h.wellFormed, h.inGroup⟩
  close _ h hstage := by
    refine ⟨h.wellFormed, ?_⟩
    rcases hstage with rfl | rfl | rfl
    · exact h.inGroup
    · trivial
    · trivial

end Steps

section Calls

variable {d : Decoder}

theorem sound_new (o : Options) : (new o).Sound := ⟨Reservoir.wellFormed_empty, trivial⟩

theorem feed?_eq (text : Bytes) {t : Transfer} {consumed : Nat} (h : t.decoder.Sound)
    (hbuffer : t.sink.buffer.length ≤ maxLength) (htext : consumed + text.length ≤ maxLength) :
    feed? t consumed text = some (feed t consumed text) := by
  induction text generalizing t consumed with
  | nil =>
    unfold feed? feed
    rw [bind_of_eq_some (Transfer.flush?_eq h.wellFormed hbuffer)]
    rfl
  | cons b text ih =>
    rw [List.length_cons] at htext
    have hflush : t.flush.decoder.Sound := invariant_sound.flush h
    have hroom : t.flush.sink.buffer.length ≤ maxLength := by
      rw [length_buffer_flush]
      exact hbuffer
    unfold feed? feed
    rw [bind_of_eq_some (Transfer.flush?_eq h.wellFormed hbuffer)]
    dsimp only
    by_cases hb : t.flush.isBlocked = true
    · rw [if_pos hb, if_pos hb]
      rfl
    · rw [if_neg hb, if_neg hb, bind_of_eq_some (Word.nextLength?_eq (by omega)),
        bind_of_eq_some (take?_eq hflush b)]
      cases ht : t.flush.decoder.take b with
      | error e => rfl
      | ok d' =>
        have hd' : d'.Sound := invariant_sound.take hflush (Bool.not_eq_true _ ▸ hb) ht
        exact (bind_of_eq_some hd'.assert?_eq _).trans (ih hd' hroom (by omega))

theorem convert?_eq (h : d.Sound) {buffer text : Bytes} (hbuffer : buffer.length ≤ maxLength)
    (htext : text.length ≤ maxLength) : d.convert? buffer text = some (d.convert buffer text) := by
  unfold convert? convert
  cases d.refusal? with
  | some e => rfl
  | none =>
    refine feed?_eq text h ?_ ?_
    · rw [Sink.buffer_ofBuffer]
      exact hbuffer
    · rw [Nat.zero_add]
      exact htext

theorem finish?_eq (h : d.Sound) {buffer : Bytes} (hbuffer : buffer.length ≤ maxLength) :
    d.finish? buffer = some (d.finish buffer) := by
  have hflush : Transfer.flush? ⟨d.settle, .ofBuffer buffer⟩ =
      some (Transfer.flush ⟨d.settle, .ofBuffer buffer⟩) := by
    refine Transfer.flush?_eq (wellFormed_settle h.wellFormed) ?_
    rw [Sink.buffer_ofBuffer]
    exact hbuffer
  unfold finish? finish
  cases d.refusal? with
  | some e => rfl
  | none =>
    cases d.ending? with
    | some e => rfl
    | none =>
      dsimp only
      rw [bind_of_eq_some d.settle?_eq, bind_of_eq_some hflush]
      rfl

theorem call?_eq (h : d.Sound) {c : Call} (hc : c.Fits) : d.call? c = some (d.call c) := by
  cases c with
  | convert buffer text => exact bind_of_eq_some (convert?_eq h hc.1 hc.2) _
  | finish buffer => exact bind_of_eq_some (finish?_eq h hc) _
  | reset => rfl

theorem session?_eq (h : d.Sound) {calls : List Call} (hcalls : ∀ c ∈ calls, c.Fits) :
    d.session? calls = some (d.session calls) := by
  induction calls generalizing d with
  | nil => rfl
  | cons c calls ih =>
    rw [List.forall_mem_cons] at hcalls
    have hnext := invariant_sound.call h c
    unfold session? session
    rw [bind_of_eq_some (call?_eq h hcalls.1), bind_of_eq_some hnext.assert?_eq,
      bind_of_eq_some (ih hnext hcalls.2)]
    rfl

end Calls

/-! ## Sessions -/

/-- **Invariant of a decoder.** After any calls, an even number of at most twelve bits waits, with
zeros above them, and a group has no more than three symbols. So the assertions hold, at most one
byte waits, and no word of the decoder ever wraps around or drops a bit. -/
theorem sound_after (o : Options) (calls : List Call) :
    let d := (new o).after calls
    (d.reservoir.size.toNat % 2 = 0 ∧ d.reservoir.size.toNat ≤ 12 ∧
      d.reservoir.bits.toNat < 2 ^ d.reservoir.size.toNat ∧
      ∀ n, d.stage = .symbols n → n ≤ 3) ∧
    d.Asserts ∧ d.reservoir.size.toNat / 8 ≤ 1 ∧
    ((∀ c ∈ calls, c.Fits) → (new o).session? calls = some ((new o).session calls)) := by
  intro d
  have h : d.Sound := invariant_sound.after (sound_new o) calls
  have hle := h.wellFormed.size_le
  refine ⟨⟨h.wellFormed.size_even, hle, h.wellFormed.bits_lt, fun n hn => ?_⟩, h.asserts, ?_,
    fun hcalls => session?_eq (sound_new o) hcalls⟩
  · have hgroup := h.inGroup
    rw [hn] at hgroup
    exact hgroup
  · omega

/-- A text is refused, and the next one goes on after an end without room. -/
theorem sound_after_two_symbols :
    let o : Options := { isPadded := false }
    let calls : List Call := [.convert [] [0x2A], .reset, .convert [] [0x2F, 0x77], .finish [],
      .convert [0x23] [0x41]]
    let d := (new o).after calls
    (∀ c ∈ calls, c.Fits) ∧ d.stage = .symbols 3 ∧ d.reservoir = ⟨0, 6⟩ ∧ 3 ≤ 3 ∧ d.Asserts ∧
      (new o).session? calls = some ((new o).session calls) := by
  intro o calls d
  have hfits : ∀ c ∈ calls, c.Fits := by decide
  have hstage : d.stage = .symbols 3 := by decide +kernel
  obtain ⟨⟨-, -, -, hgroup⟩, hasserts, -, hsession⟩ := sound_after o calls
  exact ⟨hfits, hstage, by decide +kernel, hgroup 3 hstage, hasserts, hsession hfits⟩

end Decoder

end TextCodec.Base64
