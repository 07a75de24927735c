import TextCodec.Proofs.Base64.Retrying
import TextCodec.Proofs.Success

/-!
# Failures that stick

A call that fails for any other reason than want of room leaves the decoder failed. The reason is
given once: later calls are refused with `Error.sticky`, and leave their buffers as they are, until
the decoder is reset. The call after a successful end fails in this way, too.

1. On a decoder that has not failed, a call succeeds, finds no room, or fails (`call_endsAs`).
2. On a failed decoder, every call but a reset is refused (`views_of_failed`).
3. So a run without resets has failed exactly if one of its calls has (`stage_after_eq_failed_iff`).
-/

namespace TextCodec.Base64

/-- A reason for which a decoder fails. -/
def Error.IsFault (e : Error) : Prop := e ≠ .insufficientOutput ∧ e ≠ .sticky

instance : DecidablePred Error.IsFault := fun _ => inferInstanceAs (Decidable (_ ∧ _))

/-- The call failed, and not only for want of room. -/
def View.Failed {α : Type} (v : View α) : Prop :=
  ∃ e, v.result = .error e ∧ e ≠ .insufficientOutput

namespace Call

/-- The buffer that a call may write to. -/
def buffer : Call → Bytes
  | .convert buffer _ | .finish buffer => buffer
  | .reset => []

/-- What a caller sees of a call that is refused. The buffer stays as it is. -/
def refused (e : Error) (c : Call) : View Answer := ⟨.error e, c.buffer, .failed, 0⟩

end Call

namespace Decoder

/-- How a call may end on a decoder that has not failed. -/
inductive EndsAs (c : Call) (r : Outcome Answer) : Prop
  /-- The call succeeds. -/
  | ok (answer : Answer) (result : r.result = .ok answer) (stage : r.decoder.stage ≠ .failed)
  /-- The text could end, but there is no room at all for a byte that waits. -/
  | noRoom (call : c = .finish []) (result : r.result = .error .insufficientOutput)
    (stage : r.decoder.stage ≠ .failed)
  /-- The decoder fails. -/
  | failed (e : Error) (isFault : e.IsFault) (result : r.result = .error e)
    (stage : r.decoder.stage = .failed)

section Faults

variable {d d' : Decoder} {b : UInt8} {e : Error}

theorem isFault_of_refusal? (hne : d.stage ≠ .failed) (h : d.refusal? = some e) : e.IsFault := by
  unfold refusal? at h
  split at h
  · cases h
    decide
  · next hs => exact absurd hs hne
  · cases h

theorem isFault_of_ending? (h : d.ending? = some e) : e.IsFault := by
  unfold ending? at h
  split at h
  · cases h
    decide
  · cases h
    decide
  · split_ifs at h
    cases h
    decide
  · split_ifs at h
    cases h
    decide
  · cases h

theorem isFault_of_take (h : d.take b = .error e) : e.IsFault := by
  unfold take takeSymbol takePad at h
  split at h
  · split at h <;> cases h
    decide
  · split_ifs at h
    · split at h <;> cases h
      decide
    · cases h
      decide
    · cases h
      exact ⟨nofun, nofun⟩

/-- A byte that is read does not make the decoder fail. -/
theorem stage_take_ne_failed (hne : d.stage ≠ .failed) (h : d.take b = .ok d') :
    d'.stage ≠ .failed := by
  unfold take takeSymbol takePad at h
  split at h
  · split at h <;> cases h
    nofun
  · split_ifs at h
    · split at h <;> cases h <;> nofun
    · cases h
      exact hne

end Faults

/-! ## One call -/

section Calls

variable {d : Decoder} {c : Call} {e : Error}

theorem call_convert_eq_error_iff {buffer text : Bytes} :
    (d.call (.convert buffer text)).result = .error e ↔
      (d.convert buffer text).result = .error e :=
  map_eq_error_iff

theorem call_finish_eq_error_iff {buffer : Bytes} :
    (d.call (.finish buffer)).result = .error e ↔ (d.finish buffer).result = .error e :=
  map_eq_error_iff

/-- A call that is refused leaves its buffer as it is. -/
theorem view_call_of_refusal? (h : d.refusal? = some e) (hc : c ≠ .reset) :
    (d.call c).view = c.refused e := by
  cases c with
  | convert buffer text =>
    unfold call convert
    rw [h]
    rfl
  | finish buffer =>
    unfold call finish
    rw [h]
    rfl
  | reset => exact absurd rfl hc

theorem feed_ends (text : Bytes) {t : Transfer} (hne : t.decoder.stage ≠ .failed) (consumed : Nat) :
    (∃ progress, (feed t consumed text).result = .ok progress ∧
        (feed t consumed text).decoder.stage ≠ .failed) ∨
      ∃ e : Error, e.IsFault ∧ (feed t consumed text).result = .error e ∧
        (feed t consumed text).decoder.stage = .failed := by
  induction text generalizing t consumed with
  | nil => exact Or.inl ⟨_, rfl, hne⟩
  | cons b text ih =>
    unfold feed
    dsimp only
    split_ifs
    · exact Or.inl ⟨_, rfl, hne⟩
    · split
      · next e he => exact Or.inr ⟨e, isFault_of_take he, rfl, rfl⟩
      · next d' hd => exact ih (stage_take_ne_failed (d := t.flush.decoder) hne hd) _

/-- On a decoder that has not failed, a call succeeds, finds no room, or fails. -/
theorem call_endsAs (hd : d.reservoir.WellFormed) (hne : d.stage ≠ .failed) (c : Call) :
    EndsAs c (d.call c) := by
  cases hrefusal : d.refusal? with
  | some e =>
    by_cases hc : c = .reset
    · subst hc
      exact .ok .reset rfl nofun
    · have hview := view_call_of_refusal? hrefusal hc
      exact .failed e (isFault_of_refusal? hne hrefusal) (congrArg View.result hview)
        (congrArg View.stage hview)
  | none =>
    cases c with
    | convert buffer text =>
      have hconvert : d.convert buffer text = feed ⟨d, .ofBuffer buffer⟩ 0 text := by
        unfold convert
        rw [hrefusal]
      have hends := feed_ends text (t := ⟨d, .ofBuffer buffer⟩) hne 0
      rw [← hconvert] at hends
      rcases hends with ⟨progress, hresult, hstage⟩ | ⟨e, hfault, hresult, hstage⟩
      · exact .ok (.converted progress) (congrArg (Except.map Answer.converted) hresult) hstage
      · exact .failed e hfault (congrArg (Except.map Answer.converted) hresult) hstage
    | finish buffer =>
      unfold call finish
      rw [hrefusal]
      cases hending : d.ending? with
      | some e => exact .failed e (isFault_of_ending? hending) rfl rfl
      | none =>
        dsimp only
        split_ifs with hb
        · obtain rfl : buffer = [] :=
            Reservoir.room_eq_nil_of_hasByte_drain (wellFormed_settle hd) hb
          refine .noRoom rfl rfl ?_
          show d.settle.stage ≠ .failed
          rwa [stage_settle]
        · exact .ok _ rfl nofun
    | reset => exact .ok .reset rfl nofun

namespace EndsAs

variable {r : Outcome Answer} (h : EndsAs c r)

include h

theorem noRoom_of_result (hr : r.result = .error .insufficientOutput) :
    c = .finish [] ∧ r.decoder.stage ≠ .failed := by
  cases h with
  | ok answer result stage =>
    rw [result] at hr
    cases hr
  | noRoom call result stage => exact ⟨call, stage⟩
  | failed e isFault result stage =>
    rw [result] at hr
    exact absurd (Except.error.inj hr) isFault.1

theorem failed_of_result (hr : r.result = .error e) (he : e ≠ .insufficientOutput) :
    e.IsFault ∧ r.decoder.stage = .failed := by
  cases h with
  | ok answer result stage =>
    rw [result] at hr
    cases hr
  | noRoom call result stage =>
    rw [result] at hr
    exact absurd (Except.error.inj hr).symm he
  | failed e' isFault result stage =>
    rw [result] at hr
    rw [← Except.error.inj hr]
    exact ⟨isFault, stage⟩

theorem failed_iff : r.view.Failed ↔ r.decoder.stage = .failed := by
  refine ⟨fun ⟨e, hr, he⟩ => (h.failed_of_result hr he).2, fun hs => ?_⟩
  cases h with
  | ok answer result stage => exact absurd hs stage
  | noRoom call result stage => exact absurd hs stage
  | failed e isFault result stage => exact ⟨e, result, isFault.1⟩

end EndsAs

end Calls

/-! ## Runs -/

section Runs

variable {d : Decoder} {calls : List Call}

theorem refusal?_of_failed (h : d.stage = .failed) : d.refusal? = some .sticky := by
  unfold refusal?
  rw [h]

/-- Only an end with an empty buffer finds no room. -/
theorem eq_finish_of_noRoom {c : Call} (hd : d.reservoir.WellFormed)
    (h : (d.call c).result = .error .insufficientOutput) : c = .finish [] := by
  by_cases hs : d.stage = .failed
  · by_cases hc : c = .reset
    · subst hc
      cases h
    · have hresult := congrArg View.result (view_call_of_refusal? (refusal?_of_failed hs) hc)
      cases h.symm.trans hresult
  · exact ((call_endsAs hd hs c).noRoom_of_result h).1

/-- A failed decoder refuses every call until it is reset. -/
theorem views_of_failed (h : d.stage = .failed) (hcalls : .reset ∉ calls) :
    d.views calls = calls.map (Call.refused .sticky) := by
  induction calls generalizing d with
  | nil => rfl
  | cons c calls ih =>
    obtain ⟨hc, hcalls⟩ := not_or.1 (List.mem_cons.not.1 hcalls)
    have hview := view_call_of_refusal? (refusal?_of_failed h) (Ne.symm hc)
    rw [views_cons, hview, List.map_cons, ih (congrArg View.stage hview) hcalls]

theorem stage_after_of_failed (h : d.stage = .failed) (hcalls : .reset ∉ calls) :
    (d.after calls).stage = .failed := by
  induction calls generalizing d with
  | nil => exact h
  | cons c calls ih =>
    obtain ⟨hc, hcalls⟩ := not_or.1 (List.mem_cons.not.1 hcalls)
    have hview := view_call_of_refusal? (refusal?_of_failed h) (Ne.symm hc)
    exact ih (congrArg View.stage hview) hcalls

/-- A run without resets has failed exactly if one of its calls has. -/
theorem stage_after_eq_failed_iff (hd : d.reservoir.WellFormed) (hne : d.stage ≠ .failed)
    (hcalls : .reset ∉ calls) :
    (d.after calls).stage = .failed ↔ ∃ v ∈ d.views calls, v.Failed := by
  induction calls generalizing d with
  | nil => exact ⟨fun h => absurd h hne, nofun⟩
  | cons c calls ih =>
    obtain ⟨-, hrest⟩ := not_or.1 (List.mem_cons.not.1 hcalls)
    have hfailed := (call_endsAs hd hne c).failed_iff
    show ((d.call c).decoder.after calls).stage = .failed ↔ _
    rw [views_cons]
    simp only [List.mem_cons, exists_eq_or_imp]
    by_cases hs : (d.call c).decoder.stage = .failed
    · exact ⟨fun _ => Or.inl (hfailed.2 hs), fun _ => stage_after_of_failed hs hrest⟩
    · rw [ih (invariant_wellFormed.call hd c) hs hrest]
      exact ⟨Or.inr, fun h => h.resolve_left fun hf => hs (hfailed.1 hf)⟩

/-- A text that has ended cannot be ended or continued. -/
theorem finished_of_finish {buffer : Bytes} {n : Nat} (h : (d.finish buffer).result = .ok n) :
    d.stage ≠ .failed ∧ (d.finish buffer).decoder.refusal? = some .alreadyFinished := by
  unfold finish at h ⊢
  split at h
  · cases h
  · cases h
  · next hrefusal hending =>
    refine ⟨stage_ne_failed_of_refusal? hrefusal, ?_⟩
    dsimp only at h ⊢
    split_ifs at h ⊢
    · cases h
    · rfl

end Runs

end Decoder

/-! ## Runs of a new decoder -/

open Decoder in
/-- **Failures stick.** In a run without resets, only an end with an empty buffer finds no room, and
it does not make the decoder fail. The first call with another error makes the decoder fail, and
all later calls are refused for that. After a successful end, the next call is that first one. A
reset makes the decoder as good as new, whatever was called before. -/
theorem failures_stick (o : Options) {past : List Call} (hpast : .reset ∉ past) :
    let d := (Decoder.new o).after past
    (∀ c, (d.call c).result = .error .insufficientOutput →
        c = .finish [] ∧ (d.call c).decoder.isFailed = false) ∧
      (∀ c e, (∀ v ∈ (Decoder.new o).views past, ¬v.Failed) → (d.call c).result = .error e →
        e ≠ .insufficientOutput →
          e ≠ .sticky ∧ (d.call c).decoder.stage = .failed ∧
            ∀ later, .reset ∉ later →
              (d.call c).decoder.views later = later.map (Call.refused .sticky)) ∧
      (∀ buffer n, (d.finish buffer).result = .ok n →
        (∀ v ∈ (Decoder.new o).views past, ¬v.Failed) ∧
          ∀ c, c ≠ .reset →
            ((d.finish buffer).decoder.call c).view = c.refused .alreadyFinished) ∧
      ∀ calls later, (((Decoder.new o).after calls).call .reset).decoder.session later =
        (Decoder.new o).session later := by
  intro d
  have hwf : d.reservoir.WellFormed := wellFormed_after_new o past
  have hfailed : d.stage = .failed ↔ ∃ v ∈ (Decoder.new o).views past, v.Failed :=
    stage_after_eq_failed_iff Reservoir.wellFormed_empty nofun hpast
  refine ⟨fun c h => ?_, fun c e hnone h he => ?_, fun buffer n h => ?_, fun calls later => ?_⟩
  · by_cases hs : d.stage = .failed
    · by_cases hc : c = .reset
      · subst hc
        cases h
      · have hview := view_call_of_refusal? (refusal?_of_failed hs) hc
        have hresult : (d.call c).result = .error .sticky := congrArg View.result hview
        rw [hresult] at h
        cases h
    · obtain ⟨hc, hstage⟩ := (call_endsAs hwf hs c).noRoom_of_result h
      exact ⟨hc, decide_eq_false hstage⟩
  · have hne : d.stage ≠ .failed := by
      rw [Ne, hfailed]
      rintro ⟨v, hv, hf⟩
      exact hnone v hv hf
    obtain ⟨hfault, hstage⟩ := (call_endsAs hwf hne c).failed_of_result h he
    exact ⟨hfault.2, hstage, fun later hlater => views_of_failed hstage hlater⟩
  · obtain ⟨hne, hrefusal⟩ := finished_of_finish h
    refine ⟨fun v hv hf => hne (hfailed.2 ⟨v, hv, hf⟩), fun c hc => ?_⟩
    exact view_call_of_refusal? hrefusal hc
  · show ((Decoder.new o).after calls).reset.session later = _
    unfold reset
    rw [options_after]
    rfl

/-- Two symbols whose byte waits for room. The end can be tried again, and `=` is refused. -/
theorem failures_stick_unpadded_symbols :
    let o : Options := { isPadded := false }
    let past : List Call := [.convert [] [0x2F, 0x77], .finish []]
    let d := (Decoder.new o).after past
    ((d.call (.finish [])).result = .error .insufficientOutput ∧
      (d.call (.convert [0] [0x3D])).result = .error .misplacedPadding ∧
      (d.finish [0]).result = .ok 1) ∧
      (∀ c, (d.call c).result = .error .insufficientOutput →
        c = .finish [] ∧ (d.call c).decoder.isFailed = false) ∧
      (∀ c e, (∀ v ∈ (Decoder.new o).views past, ¬v.Failed) → (d.call c).result = .error e →
        e ≠ .insufficientOutput →
          e ≠ .sticky ∧ (d.call c).decoder.stage = .failed ∧
            ∀ later, .reset ∉ later →
              (d.call c).decoder.views later = later.map (Call.refused .sticky)) ∧
      (∀ buffer n, (d.finish buffer).result = .ok n →
        (∀ v ∈ (Decoder.new o).views past, ¬v.Failed) ∧
          ∀ c, c ≠ .reset →
            ((d.finish buffer).decoder.call c).view = c.refused .alreadyFinished) ∧
      ∀ calls later, (((Decoder.new o).after calls).call .reset).decoder.session later =
        (Decoder.new o).session later :=
  ⟨by decide +kernel, failures_stick _ (by decide)⟩

end TextCodec.Base64
