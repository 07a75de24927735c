import TextCodec.Proofs.Base64.Sessions

/-!
# Decoders in lockstep

Two decoders get the same calls, but the texts for the second one are translated byte by byte. Its
options *follow* those of the first if they read the translation of a byte as the others read the
byte itself. Then both decoders have the same stages and the same bits, and their calls look the
same up to the bytes that are named in errors.

Where the first decoder fails, the second one does the same only if its options follow faithfully.
If they do not, they are promised to read what the others read, and the decoders keep together until
the first one fails.

1. `Options.Follows faithful f o p`: the options `p` follow `o`, with the translation `f`.
2. A byte of text, the end of a text and a call are followed (`Follows.take`, `Follows.ending?`,
   `Follows.call`).
3. So sessions look the same (`Follows.views_eq`).
-/

namespace TextCodec.Base64

/-! ## Translations -/

section Translate

variable {α : Type}

/-- The error with the byte that it names translated. -/
def Error.translate (f : UInt8 → UInt8) : Error → Error
  | unrecognizedCharacter b => unrecognizedCharacter (f b)
  | e => e

/-- The call with its text translated. -/
def Call.translate (f : UInt8 → UInt8) : Call → Call
  | convert buffer text => convert buffer (text.map f)
  | c => c

/-- The same view with another byte named in an error. -/
def View.translate (f : UInt8 → UInt8) (v : View α) : View α :=
  { v with result := v.result.mapError (.translate f) }

theorem Error.translate_id : Error.translate id = id := by
  funext e
  cases e <;> rfl

theorem Call.translate_id : Call.translate id = id := by
  funext c
  cases c with
  | convert buffer text => exact congrArg (convert buffer) (List.map_id text)
  | finish buffer => rfl
  | reset => rfl

theorem View.translate_id : View.translate (α := α) id = id := by
  funext v
  unfold translate
  rw [Error.translate_id]
  cases hv : v.result <;> simp [Except.mapError, ← hv]

/-- The decoder with other options. -/
def Decoder.withOptions (d : Decoder) (o : Options) : Decoder := { d with options := o }

def Transfer.withOptions (t : Transfer) (o : Options) : Transfer :=
  { t with decoder := t.decoder.withOptions o }

/-- What the call leaves behind on a decoder with other options. -/
def Outcome.translate (p : Options) (f : UInt8 → UInt8) (r : Outcome α) : Outcome α where
  decoder := r.decoder.withOptions p
  buffer := r.buffer
  result := r.result.mapError (.translate f)

theorem Outcome.view_translate (p : Options) (f : UInt8 → UInt8) (r : Outcome α) :
    (r.translate p f).view = r.view.translate f := rfl

theorem Outcome.translate_map {β : Type} (p : Options) (f : UInt8 → UInt8) (r : Outcome α)
    (g : α → β) : ({ r with result := r.result.map g } : Outcome β).translate p f =
      { r.translate p f with result := (r.translate p f).result.map g } := by
  unfold translate
  cases r.result <;> rfl

end Translate

/-! ## Steps under other options -/

section Steps

variable {f : UInt8 → UInt8} {p : Options}

theorem Transfer.fail_withOptions {α : Type} (t : Transfer) {e : Error} (he : e.translate f = e) :
    ((t.withOptions p).fail e : Outcome α) = (t.fail e).translate p f := by
  conv_lhs => rw [← he]
  rfl

namespace Decoder

variable {d : Decoder} {e : Error}

theorem takeSymbol_withOptions (d : Decoder) (v : Nat) : (d.withOptions p).takeSymbol v =
    ((d.takeSymbol v).map (·.withOptions p)).mapError (.translate f) := by
  unfold takeSymbol withOptions
  cases d.stage.count? <;> rfl

theorem takePad_withOptions (d : Decoder) : (d.withOptions p).takePad =
    ((d.takePad).map (·.withOptions p)).mapError (.translate f) := by
  unfold takePad withOptions
  rcases d.stage with _ | _ | (_ | _ | _ | _ | n) | _ | _ | _ <;> rfl

theorem settle_withOptions (d : Decoder) :
    (d.withOptions p).settle = d.settle.withOptions p := by
  obtain ⟨o, stage, r, n⟩ := d
  rcases stage with _ | _ | (_ | _ | _ | _ | n) | _ | _ | _ <;> rfl

theorem refusal?_withOptions (d : Decoder) : (d.withOptions p).refusal? = d.refusal? := rfl

/-- Only a byte of text is named in an error. -/
theorem translate_refusal? (he : d.refusal? = some e) : e.translate f = e := by
  unfold refusal? at he
  split at he <;> cases he <;> rfl

theorem translate_ending? (he : d.ending? = some e) : e.translate f = e := by
  unfold ending? at he
  split at he
  · cases he
    rfl
  · cases he
    rfl
  · split_ifs at he
    cases he
    rfl
  · split_ifs at he
    cases he
    rfl
  · cases he

end Decoder

end Steps

/-! ## Options that follow others -/

/-- The options `p` read the translation of a byte as `o` read the byte. What `o` refuse is refused
in the same way if `faithful`. -/
structure Options.Follows (faithful : Prop) (f : UInt8 → UInt8) (o p : Options) : Prop where
  value? (b : UInt8) : p.alphabet.value? (f b) = o.alphabet.value? b
  pad_iff {b : UInt8} : f b = pad ↔ b = pad
  isPadded : p.isPadded = o.isPadded
  skips {b : UInt8} : faithful ∨ o.skips b = true → p.skips (f b) = o.skips b
  requiresPadding : faithful ∨ o.requiresPadding = false → p.requiresPadding = o.requiresPadding

namespace Options.Follows

open Decoder

variable {faithful : Prop} {f : UInt8 → UInt8} {o p : Options} (h : Follows faithful f o p)
  {d : Decoder}

include h

/-- The translation of a byte is taken as the byte is. -/
theorem take (hd : d.options = o) {b : UInt8} (hok : faithful ∨ ∃ d', d.take b = .ok d') :
    (d.withOptions p).take (f b) =
      ((d.take b).map (·.withOptions p)).mapError (.translate f) := by
  have hpad : (f b = pad ∧ p.isPadded = true) ↔ b = pad ∧ o.isPadded = true := by
    rw [h.pad_iff, h.isPadded]
  unfold Decoder.take at hok ⊢
  rw [show (d.withOptions p).options = p from rfl, h.value? b]
  rw [hd] at hok ⊢
  cases hv : o.alphabet.value? b with
  | some v => exact takeSymbol_withOptions d v
  | none =>
    rw [hv] at hok
    dsimp only at hok ⊢
    by_cases hb : b = pad ∧ o.isPadded = true
    · rw [if_pos hb, if_pos (hpad.2 hb)]
      exact takePad_withOptions d
    · rw [if_neg hb] at hok ⊢
      rw [if_neg (hpad.not.2 hb)]
      have hskips : p.skips (f b) = o.skips b := h.skips <| hok.imp_right fun ⟨d', hd'⟩ => by
        split_ifs at hd' with hs
        exact hs
      rw [hskips]
      simp only [h.pad_iff]
      split_ifs <;> rfl

/-- The end of a text is followed. -/
theorem ending? (hd : d.options = o) (hok : faithful ∨ d.ending? = none) :
    (d.withOptions p).ending? = d.ending? := by
  have hshort : faithful ∨ (if o.requiresPadding then some Error.missingPadding else none) = none →
      (if p.requiresPadding then some Error.missingPadding else none) =
        if o.requiresPadding then some Error.missingPadding else none := by
    intro hok
    rw [h.requiresPadding (hok.imp_right fun hnone => ?_)]
    split_ifs at hnone with hreq
    exact Bool.not_eq_true _ ▸ hreq
  unfold Decoder.ending? withOptions at *
  rw [hd] at hok ⊢
  dsimp only
  rcases hstage : d.stage with _ | _ | (_ | _ | _ | _ | n) | _ | _ | _ <;> rw [hstage] at hok
  case symbols.succ.succ.zero => exact hshort hok
  case symbols.succ.succ.succ.zero => exact hshort hok
  all_goals rfl

/-! ## Calls -/

theorem feed (text : Bytes) {t : Transfer} (ht : t.decoder.options = o) (consumed : Nat)
    (hok : faithful ∨ (Decoder.feed t consumed text).decoder.stage ≠ .failed) :
    Decoder.feed (t.withOptions p) consumed (text.map f) =
      (Decoder.feed t consumed text).translate p f := by
  induction text generalizing t consumed with
  | nil => rfl
  | cons b text ih =>
    have hoptions : t.flush.decoder.options = o := ht
    rw [List.map_cons]
    unfold Decoder.feed at hok ⊢
    rw [show (t.withOptions p).flush = t.flush.withOptions p from rfl]
    dsimp only at hok ⊢
    rw [show (t.flush.withOptions p).isBlocked = t.flush.isBlocked from rfl]
    by_cases hb : t.flush.isBlocked = true
    · rw [if_pos hb, if_pos hb]
      rfl
    · rw [if_neg hb] at hok
      rw [if_neg hb, if_neg hb,
        show (t.flush.withOptions p).decoder = t.flush.decoder.withOptions p from rfl]
      cases htake : t.flush.decoder.take b with
      | error e =>
        rw [htake] at hok
        have hfaithful : faithful := hok.resolve_right fun hne => hne rfl
        rw [h.take hoptions (Or.inl hfaithful), htake]
        rfl
      | ok d' =>
        rw [htake] at hok
        rw [h.take hoptions (Or.inr ⟨d', htake⟩), htake]
        exact ih (t := ⟨d', t.flush.sink⟩) ((options_take htake).trans hoptions) (consumed + 1) hok

theorem convert (hd : d.options = o) (buffer text : Bytes)
    (hok : faithful ∨ (d.convert buffer text).decoder.stage ≠ .failed) :
    (d.withOptions p).convert buffer (text.map f) = (d.convert buffer text).translate p f := by
  unfold Decoder.convert at hok ⊢
  rw [refusal?_withOptions]
  cases hrefusal : d.refusal? with
  | some e => exact Transfer.fail_withOptions ⟨d, .ofBuffer buffer⟩ (translate_refusal? hrefusal)
  | none =>
    rw [hrefusal] at hok
    exact h.feed text (t := ⟨d, .ofBuffer buffer⟩) hd 0 hok

theorem finish (hd : d.options = o) (buffer : Bytes)
    (hok : faithful ∨ (d.finish buffer).decoder.stage ≠ .failed) :
    (d.withOptions p).finish buffer = (d.finish buffer).translate p f := by
  unfold Decoder.finish at hok ⊢
  rw [refusal?_withOptions]
  cases hrefusal : d.refusal? with
  | some e => exact Transfer.fail_withOptions ⟨d, .ofBuffer buffer⟩ (translate_refusal? hrefusal)
  | none =>
    rw [hrefusal] at hok
    cases hending : d.ending? with
    | some e =>
      rw [hending] at hok
      have hfaithful : faithful := hok.resolve_right fun hne => hne rfl
      rw [h.ending? hd (Or.inl hfaithful), hending]
      exact Transfer.fail_withOptions ⟨d, .ofBuffer buffer⟩ (translate_ending? hending)
    | none =>
      rw [h.ending? hd (Or.inr hending), hending]
      dsimp only
      rw [settle_withOptions]
      by_cases hb : (Transfer.flush ⟨d.settle, .ofBuffer buffer⟩).isBlocked = true
      · rw [if_pos hb]
        exact if_pos hb
      · rw [if_neg hb]
        exact if_neg hb

/-- A call with a translated text does what the call does. -/
theorem call (hd : d.options = o) (c : Call)
    (hok : faithful ∨ (d.call c).decoder.stage ≠ .failed) :
    (d.withOptions p).call (c.translate f) = (d.call c).translate p f := by
  cases c with
  | convert buffer text =>
    unfold Decoder.call at hok ⊢
    rw [Outcome.translate_map, ← h.convert hd buffer text hok]
    rfl
  | finish buffer =>
    unfold Decoder.call at hok ⊢
    rw [Outcome.translate_map, ← h.finish hd buffer hok]
    rfl
  | reset => rfl

/-! ## Sessions -/

/-- A session with translated texts looks like the session, up to the bytes that errors name. -/
theorem views_eq (hd : d.options = o) (calls : List Call)
    (hok : faithful ∨ ∀ v ∈ d.views calls, v.stage ≠ .failed) :
    (d.withOptions p).views (calls.map (.translate f)) = (d.views calls).map (.translate f) := by
  induction calls generalizing d with
  | nil => rfl
  | cons c calls ih =>
    rw [views_cons] at hok ⊢
    rw [List.forall_mem_cons] at hok
    have hcall := h.call hd c (hok.imp_right And.left)
    rw [List.map_cons, List.map_cons, views_cons, hcall, Outcome.view_translate]
    exact congrArg _ (ih ((options_call d c).trans hd) (hok.imp_right And.right))

end Options.Follows

end TextCodec.Base64
