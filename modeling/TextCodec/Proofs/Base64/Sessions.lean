import TextCodec.Base64.Session
import TextCodec.Proofs.Base64.Tracking

/-!
# Decoders between the calls of a session

Calls may come in any order, with any texts and buffers, and each may fail. A property that every
step of a decoder keeps is true after all of them (`Decoder.Invariant.after`). So the options of the
decoder stay, and its reservoir stays in order (`Decoder.invariant_wellFormed`): no symbol is added
while a byte waits, and an end that finds no room only drops leftovers.
-/

namespace TextCodec.Base64

/-- What a caller sees of a call. -/
structure View (α : Type) where
  result : Except Error α
  /-- The buffer after the call. -/
  buffer : Bytes
  stage : Stage
  /-- How many bytes of the buffer were written. -/
  outputLength : Nat
deriving DecidableEq, Repr

def Outcome.view {α : Type} (r : Outcome α) : View α where
  result := r.result
  buffer := r.buffer
  stage := r.decoder.stage
  outputLength := r.decoder.outputLength

namespace Decoder

/-- What a caller sees of a session. -/
def views (d : Decoder) (calls : List Call) : List (View Answer) :=
  (d.session calls).map Outcome.view

theorem views_cons (d : Decoder) (c : Call) (calls : List Call) :
    d.views (c :: calls) = (d.call c).view :: (d.call c).decoder.views calls := rfl

/-! ## Invariants -/

/-- A property of decoders that every step keeps. A byte of text is only taken while no byte
waits. -/
structure Invariant (P : Decoder → Prop) : Prop where
  reset {d : Decoder} : P d → P d.reset
  take {d d' : Decoder} {b : UInt8} : P d → d.reservoir.hasByte = false → d.take b = .ok d' → P d'
  settle {d : Decoder} : P d → P d.settle
  /-- Bytes that wait may be written. -/
  flush {t : Transfer} : P t.decoder → P t.flush.decoder
  /-- A call ends at the stage that was reached, or for good. -/
  close {d : Decoder} {stage : Stage} (n : Nat) : P d →
    stage = d.stage ∨ stage = .failed ∨ stage = .finished →
      P { d with stage, outputLength := n }

namespace Invariant

variable {P : Decoder → Prop} {d : Decoder} {t : Transfer}

section Calls

variable (hP : Invariant P)

include hP

theorem stop {α : Type} (h : P t.decoder) (result : Except Error α) : P (t.stop result).decoder :=
  hP.close _ h (.inl rfl)

theorem fail {α : Type} (h : P t.decoder) (e : Error) :
    P (t.fail e : Outcome α).decoder :=
  hP.close _ h (.inr (.inl rfl))

theorem feed (h : P t.decoder) (consumed : Nat) (text : Bytes) :
    P (Decoder.feed t consumed text).decoder := by
  induction text generalizing t consumed with
  | nil => exact hP.stop (hP.flush h) _
  | cons b text ih =>
    unfold Decoder.feed
    by_cases hb : t.flush.isBlocked = true
    · rw [if_pos hb]
      exact hP.stop (hP.flush h) _
    · rw [if_neg hb]
      split
      · exact hP.fail (hP.flush h) _
      · next d' hd => exact ih (hP.take (hP.flush h) (Bool.not_eq_true _ ▸ hb) hd) _

theorem finish (h : P d) (buffer : Bytes) : P (d.finish buffer).decoder := by
  have hflush := hP.flush (t := ⟨d.settle, .ofBuffer buffer⟩) (hP.settle h)
  unfold Decoder.finish
  split
  · exact hP.fail h _
  · exact hP.fail h _
  · dsimp only
    split_ifs
    · exact hP.stop hflush _
    · exact hP.close _ hflush (.inr (.inr rfl))

theorem call (h : P d) (c : Call) : P (d.call c).decoder := by
  cases c with
  | convert buffer text =>
    show P (d.convert buffer text).decoder
    unfold convert
    split
    · exact hP.fail h _
    · exact hP.feed h _ _
  | finish buffer => exact hP.finish h buffer
  | reset => exact hP.reset h

/-- What every step keeps is true after any calls. -/
theorem after (h : P d) (calls : List Call) : P (d.after calls) := by
  induction calls generalizing d with
  | nil => exact h
  | cons c calls ih => exact ih (hP.call h c)

end Calls

end Invariant

section Steps

variable {d d' : Decoder}

/-! ## Options -/

theorem options_take {b : UInt8} (h : d.take b = .ok d') : d'.options = d.options := by
  unfold take takeSymbol takePad at h
  split at h
  · split at h <;> cases h
    rfl
  · split_ifs at h
    · split at h <;> cases h <;> rfl
    · cases h
      rfl

theorem options_settle (d : Decoder) : d.settle.options = d.options := by
  unfold settle
  split <;> rfl

theorem invariant_options (o : Options) : Invariant fun d => d.options = o where
  reset h := h
  take h _ ht := (options_take ht).trans h
  settle h := (options_settle _).trans h
  flush h := h
  close _ h _ := h

theorem options_call (d : Decoder) (c : Call) : (d.call c).decoder.options = d.options :=
  (invariant_options d.options).call rfl c

theorem options_after (d : Decoder) (calls : List Call) : (d.after calls).options = d.options :=
  (invariant_options d.options).after rfl calls

/-! ## Reservoirs -/

theorem wellFormed_takeSymbol (h : d.reservoir.WellFormed) (hb : d.reservoir.hasByte = false)
    {v : Nat} (hv : v < 64) (ht : d.takeSymbol v = .ok d') : d'.reservoir.WellFormed := by
  unfold takeSymbol at ht
  split at ht <;> cases ht
  exact h.push hb hv

theorem wellFormed_takePad (h : d.reservoir.WellFormed) (ht : d.takePad = .ok d') :
    d'.reservoir.WellFormed := by
  unfold takePad at ht
  split at ht <;> cases ht
  · exact h.dropPartial
  · exact h.dropPartial
  · exact h

theorem wellFormed_take (h : d.reservoir.WellFormed) (hb : d.reservoir.hasByte = false)
    {b : UInt8} (ht : d.take b = .ok d') : d'.reservoir.WellFormed := by
  unfold take at ht
  split at ht
  · next v hv => exact wellFormed_takeSymbol h hb (Alphabet.value?_eq_some_iff.1 hv).1 ht
  · split_ifs at ht
    · exact wellFormed_takePad h ht
    · cases ht
      exact h

theorem wellFormed_flush {t : Transfer} (h : t.decoder.reservoir.WellFormed) :
    t.flush.decoder.reservoir.WellFormed :=
  (Reservoir.drained h t.sink.written t.sink.room).wellFormed

/-- The reservoir is in order after every step. -/
theorem invariant_wellFormed : Invariant fun d => d.reservoir.WellFormed where
  reset _ := Reservoir.wellFormed_empty
  take h hb ht := wellFormed_take h hb ht
  settle h := wellFormed_settle h
  flush h := wellFormed_flush h
  close _ h _ := h

theorem wellFormed_after_new (o : Options) (calls : List Call) :
    ((new o).after calls).reservoir.WellFormed :=
  invariant_wellFormed.after Reservoir.wellFormed_empty calls

end Steps

end Decoder

end TextCodec.Base64
