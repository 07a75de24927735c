import TextCodec.Proofs.Base64.Language
import TextCodec.Proofs.Base64.Sessions

/-!
# Ending a text again

A call that ends a text and finds no room for the byte that waits leaves the decoder ready for more
calls. But it has dropped the leftovers already, the bits of a short last group that make no byte,
while the stage still says that the group is open. Without leftovers no later session can tell that
the call was made. With leftovers, one more symbol tells: its bits are put where the dropped ones
stood. A session that does not go on with a symbol cannot tell even then, so to try again with more
room is safe.

1. `Alike loose d e`: the decoders differ at most in leftovers, and in those only if `loose`.
2. A byte of text, a flush and a call keep that and look the same (`Alike.take`, `Alike.flush`,
   `Alike.call`), and so do sessions (`Alike.views_eq`).
3. An end without room leaves a decoder that is alike (`alike_finish`), and one symbol shows how
   many bits it has (`result_convert_symbol`).
4. So an end that was tried without room shows exactly if there were leftovers
   (`views_after_finish`).
-/

namespace TextCodec.Base64

/-- The first byte of the text that is not skipped is a symbol. -/
def OpensWithSymbol (o : Options) (text : Bytes) : Prop :=
  ∃ b ∈ (significant o text).head?, b ∈ o.alphabet.symbols

theorem opensWithSymbol_cons_of_skips {o : Options} {b : UInt8} (h : o.skips b = true)
    (text : Bytes) : OpensWithSymbol o (b :: text) ↔ OpensWithSymbol o text := by
  unfold OpensWithSymbol
  rw [significant_cons_of_skips h]

/-- A byte that is no symbol is skipped, or stands at the front. -/
theorem value?_of_not_opensWithSymbol {o : Options} {b : UInt8} {text : Bytes}
    (h : ¬OpensWithSymbol o (b :: text)) : o.alphabet.value? b = none := by
  by_cases hs : o.skips b = true
  · exact o.value?_of_skips hs
  · rw [Alphabet.value?_eq_none_iff]
    intro hb
    refine h ⟨b, ?_, hb⟩
    rw [significant_cons_of_not_skips hs]
    rfl

/-- The call feeds a text that goes on with a symbol. -/
def Call.OpensWithSymbol (o : Options) : Call → Prop
  | .convert _ text => Base64.OpensWithSymbol o text
  | .finish _ | .reset => False

/-- The last group has symbols that may end the text with bits left over. -/
def Stage.IsShort (s : Stage) : Prop := s = .symbols 2 ∨ s = .symbols 3

instance : DecidablePred Stage.IsShort := fun _ => inferInstanceAs (Decidable (_ ∨ _))

namespace Decoder

/-- Whether there are bits that the end of the text drops. -/
def HasLeftovers (d : Decoder) : Prop := d.stage.IsShort ∧ d.reservoir.size.toNat % 8 ≠ 0

instance : DecidablePred HasLeftovers := fun _ => inferInstanceAs (Decidable (_ ∧ _))

theorem reservoir_settle (d : Decoder) :
    d.settle.reservoir = if d.stage.IsShort then d.reservoir.dropPartial else d.reservoir := by
  unfold settle
  split
  · next h => exact (if_pos (Or.inl h)).symm
  · next h => exact (if_pos (Or.inr h)).symm
  · next h2 h3 => exact (if_neg (not_or.2 ⟨h2, h3⟩)).symm

/-! ## Decoders that differ in leftovers -/

/-- The decoders differ at most in leftovers, and in those only if `loose`. What a failed decoder
holds does not count. -/
structure Alike (loose : Prop) (d e : Decoder) : Prop where
  options : d.options = e.options
  stage : d.stage = e.stage
  wellFormed : d.reservoir.WellFormed
  wellFormed' : e.reservoir.WellFormed
  dropPartial : d.stage ≠ .failed → d.reservoir.dropPartial = e.reservoir.dropPartial
  reservoir : d.stage ≠ .failed → ¬(loose ∧ d.stage.IsShort) → d.reservoir = e.reservoir

section Alike

variable {loose : Prop} {d e : Decoder} {s : Sink}

theorem Alike.refl (d : Decoder) (h : d.reservoir.WellFormed) : Alike loose d d :=
  ⟨rfl, rfl, h, h, fun _ => rfl, fun _ _ => rfl⟩

theorem Alike.mono {loose' : Prop} (h : Alike loose d e) (himp : loose → loose') :
    Alike loose' d e :=
  { h with reservoir := fun hne hno => h.reservoir hne fun hl => hno ⟨himp hl.1, hl.2⟩ }

theorem Alike.weaken (h : Alike False d e) : Alike loose d e := h.mono False.elim

theorem Alike.trans {f : Decoder} (h : Alike loose d e) (h' : Alike loose e f) :
    Alike loose d f where
  options := h.options.trans h'.options
  stage := h.stage.trans h'.stage
  wellFormed := h.wellFormed
  wellFormed' := h'.wellFormed'
  dropPartial hne := (h.dropPartial hne).trans (h'.dropPartial (h.stage ▸ hne))
  reservoir hne hno := (h.reservoir hne hno).trans (h'.reservoir (h.stage ▸ hne) (h.stage ▸ hno))

theorem Alike.of_reservoir (ho : d.options = e.options) (hs : d.stage = e.stage)
    (hd : d.reservoir.WellFormed) (h : d.reservoir = e.reservoir) : Alike loose d e :=
  ⟨ho, hs, hd, h ▸ hd, fun _ => congrArg _ h, fun _ _ => h⟩

theorem Alike.refusal? (h : Alike loose d e) : d.refusal? = e.refusal? := by
  unfold Decoder.refusal?
  rw [h.stage]

theorem Alike.ending? (h : Alike loose d e) : d.ending? = e.ending? := by
  unfold Decoder.ending?
  rw [h.stage, h.options]

theorem Alike.hasByte (h : Alike loose d e) (hne : d.stage ≠ .failed) :
    d.reservoir.hasByte = e.reservoir.hasByte := by
  rw [← Reservoir.hasByte_dropPartial, h.dropPartial hne, Reservoir.hasByte_dropPartial]

theorem stage_ne_failed_of_refusal? (h : d.refusal? = none) : d.stage ≠ .failed := by
  intro hs
  unfold Decoder.refusal? at h
  rw [hs] at h
  cases h

/-- Without a difference in leftovers, both decoders have read and written the same. -/
theorem Alike.tracks {o : Options} {out : Bytes} {c : Content} (h : Alike loose d e)
    (hno : ¬loose) (ht : Tracks o e out c) : Tracks o d out c where
  options := h.options.trans ht.options
  stage := h.stage.trans ht.stage
  wellFormed := h.wellFormed
  bits := by
    have hne := stage_ne_failed_of_refusal? (h.refusal?.trans ht.refusal?_eq_none)
    rw [h.reservoir hne fun hl => hno hl.1]
    exact ht.bits

/-- Flushing writes the same bytes. -/
theorem Alike.flush (h : Alike loose d e) (hne : d.stage ≠ .failed) :
    (Transfer.flush ⟨d, s⟩).sink = (Transfer.flush ⟨e, s⟩).sink ∧
      Alike loose (Transfer.flush ⟨d, s⟩).decoder (Transfer.flush ⟨e, s⟩).decoder := by
  have hd := Reservoir.drain_dropPartial h.wellFormed s.written s.room
  have he := Reservoir.drain_dropPartial h.wellFormed' s.written s.room
  rw [h.dropPartial hne, he, Prod.mk.injEq] at hd
  refine ⟨hd.2.symm, h.options, h.stage, wellFormed_flush h.wellFormed,
    wellFormed_flush h.wellFormed', fun _ => hd.1.symm, fun _ hloose => ?_⟩
  show (d.reservoir.drain s.written s.room).1 = (e.reservoir.drain s.written s.room).1
  rw [h.reservoir hne hloose]

theorem Alike.takePad (h : Alike loose d e) :
    (∃ x, d.takePad = .error x ∧ e.takePad = .error x) ∨
      ∃ d' e', d.takePad = .ok d' ∧ e.takePad = .ok e' ∧ Alike False d' e' ∧
        d'.stage ≠ .failed := by
  unfold Decoder.takePad
  rw [← h.stage]
  split
  · next hs =>
    have hdrop := h.dropPartial (by rw [hs]; decide)
    exact Or.inr ⟨_, _, rfl, rfl, .of_reservoir h.options rfl h.wellFormed.dropPartial hdrop,
      nofun⟩
  · next hs =>
    have hdrop := h.dropPartial (by rw [hs]; decide)
    exact Or.inr ⟨_, _, rfl, rfl, .of_reservoir h.options rfl h.wellFormed.dropPartial hdrop,
      nofun⟩
  · next hs =>
    have hres := h.reservoir (by rw [hs]; decide) fun hloose => by
      have hshort := hloose.2
      rw [hs] at hshort
      exact absurd hshort (by decide)
    exact Or.inr ⟨_, _, rfl, rfl, .of_reservoir h.options rfl h.wellFormed hres, nofun⟩
  · exact Or.inl ⟨_, rfl, rfl⟩

theorem Alike.takeSymbol (h : Alike loose d e) (hne : d.stage ≠ .failed) (hloose : ¬loose)
    (hb : d.reservoir.hasByte = false) {v : Nat} (hv : v < 64) :
    (∃ x, d.takeSymbol v = .error x ∧ e.takeSymbol v = .error x) ∨
      ∃ d' e', d.takeSymbol v = .ok d' ∧ e.takeSymbol v = .ok e' ∧ Alike False d' e' ∧
        d'.stage ≠ .failed := by
  have hres := h.reservoir hne fun hl => hloose hl.1
  unfold Decoder.takeSymbol
  rw [← h.stage, ← hres]
  split
  · exact Or.inr ⟨_, _, rfl, rfl, .of_reservoir h.options rfl (h.wellFormed.push hb hv) rfl,
      nofun⟩
  · exact Or.inl ⟨_, rfl, rfl⟩

/-- A byte is refused by both decoders, or skipped by both. Otherwise it takes the difference away,
provided that no symbol is taken while there is one. -/
theorem Alike.take (h : Alike loose d e) (hne : d.stage ≠ .failed)
    (hb : d.reservoir.hasByte = false) {b : UInt8}
    (hloose : loose → d.options.alphabet.value? b = none) :
    (∃ x, d.take b = .error x ∧ e.take b = .error x) ∨
      (d.options.skips b = true ∧ d.take b = .ok d ∧ e.take b = .ok e) ∨
      ∃ d' e', d.take b = .ok d' ∧ e.take b = .ok e' ∧ Alike False d' e' ∧
        d'.stage ≠ .failed := by
  unfold Decoder.take
  rw [← h.options]
  cases hval : d.options.alphabet.value? b with
  | some v =>
    have hstrict : ¬loose := fun hl => by
      rw [hloose hl] at hval
      cases hval
    rcases h.takeSymbol hne hstrict hb (Alphabet.value?_eq_some_iff.1 hval).1 with hx | hok
    · exact Or.inl hx
    · exact Or.inr (Or.inr hok)
  | none =>
    dsimp only
    split_ifs with hpad hskip
    · rcases h.takePad with hx | hok
      · exact Or.inl hx
      · exact Or.inr (Or.inr hok)
    · exact Or.inr (Or.inl ⟨hskip, rfl, rfl⟩)
    · exact Or.inl ⟨_, rfl, rfl⟩
    · exact Or.inl ⟨_, rfl, rfl⟩

/-! ## Calls on decoders that differ in leftovers -/

/-- Calls on both decoders look the same, and leave decoders that are alike. -/
structure AlikeAfter {α : Type} (loose : Prop) (r q : Outcome α) : Prop where
  view : r.view = q.view
  decoder : Alike loose r.decoder q.decoder

section Close

variable {α : Type} {t u : Transfer}

theorem Alike.stop (h : Alike loose t.decoder u.decoder) (hsink : t.sink = u.sink)
    (result : Except Error α) : AlikeAfter loose (t.stop result) (u.stop result) := by
  constructor
  · unfold Transfer.stop Transfer.close Outcome.view
    rw [hsink, h.stage]
  · exact ⟨h.options, h.stage, h.wellFormed, h.wellFormed', h.dropPartial, h.reservoir⟩

theorem Alike.fail (h : Alike loose t.decoder u.decoder) (hsink : t.sink = u.sink) (x : Error) :
    AlikeAfter loose (t.fail x : Outcome α) (u.fail x) := by
  constructor
  · unfold Transfer.fail Transfer.close Outcome.view
    rw [hsink]
  · exact ⟨h.options, rfl, h.wellFormed, h.wellFormed', fun hne => absurd rfl hne,
      fun hne => absurd rfl hne⟩

theorem Alike.closeFinished (h : Alike False t.decoder u.decoder) (hne : t.decoder.stage ≠ .failed)
    (hsink : t.sink = u.sink) (result : Except Error α) :
    AlikeAfter loose (t.close .finished result) (u.close .finished result) := by
  constructor
  · unfold Transfer.close Outcome.view
    rw [hsink]
  · exact .of_reservoir h.options rfl h.wellFormed (h.reservoir hne fun hf => hf.1)

end Close

theorem Alike.feed (text : Bytes) (h : Alike loose d e) (hne : d.stage ≠ .failed) (consumed : Nat)
    (htext : loose → ¬OpensWithSymbol d.options text) :
    AlikeAfter loose (Decoder.feed ⟨d, s⟩ consumed text) (Decoder.feed ⟨e, s⟩ consumed text) := by
  induction text generalizing loose d e s consumed with
  | nil =>
    obtain ⟨hsink, hflush⟩ := h.flush (s := s) hne
    unfold Decoder.feed
    rw [hsink]
    exact hflush.stop hsink _
  | cons b text ih =>
    obtain ⟨hsink, hflush⟩ := h.flush (s := s) hne
    have hne' : (Transfer.flush ⟨d, s⟩).decoder.stage ≠ .failed := hne
    have hblocked : (Transfer.flush ⟨d, s⟩).isBlocked = (Transfer.flush ⟨e, s⟩).isBlocked :=
      hflush.hasByte hne'
    unfold Decoder.feed
    dsimp only
    rw [← hblocked, hsink]
    by_cases hb : (Transfer.flush ⟨d, s⟩).isBlocked = true
    · rw [if_pos hb, if_pos hb]
      exact hflush.stop hsink _
    · rw [if_neg hb, if_neg hb]
      rcases hflush.take hne' (Bool.not_eq_true _ ▸ hb) (b := b)
        (fun hl => value?_of_not_opensWithSymbol (htext hl)) with
        ⟨x, hd, he⟩ | ⟨hskip, hd, he⟩ | ⟨d', e', hd, he, halike, hstage⟩
      · rw [hd, he]
        exact hflush.fail hsink x
      · have hskip' : d.options.skips b = true := hskip
        rw [hd, he]
        refine ih hflush hne' _ fun hl hopens => htext hl ?_
        rw [opensWithSymbol_cons_of_skips hskip']
        exact hopens
      · rw [hd, he]
        have hrest := ih (s := (Transfer.flush ⟨e, s⟩).sink) halike hstage (consumed + 1)
          fun hf => hf.elim
        exact ⟨hrest.view, hrest.decoder.weaken⟩

theorem Alike.convert (h : Alike loose d e) (buffer text : Bytes)
    (htext : loose → ¬OpensWithSymbol d.options text) :
    AlikeAfter loose (d.convert buffer text) (e.convert buffer text) := by
  unfold Decoder.convert
  rw [← h.refusal?]
  split
  · exact Alike.fail (t := ⟨d, .ofBuffer buffer⟩) (u := ⟨e, .ofBuffer buffer⟩) h rfl _
  · next hnone => exact h.feed text (stage_ne_failed_of_refusal? hnone) 0 htext

theorem Alike.settle (h : Alike loose d e) (hne : d.stage ≠ .failed) :
    Alike False d.settle e.settle := by
  refine .of_reservoir ?_ ?_ (wellFormed_settle h.wellFormed) ?_
  · rw [options_settle, options_settle, h.options]
  · rw [stage_settle, stage_settle, h.stage]
  · rw [reservoir_settle, reservoir_settle, ← h.stage]
    split_ifs with hshort
    · exact h.dropPartial hne
    · exact h.reservoir hne fun hl => hshort hl.2

theorem Alike.finish (h : Alike loose d e) (buffer : Bytes) :
    AlikeAfter loose (d.finish buffer) (e.finish buffer) := by
  unfold Decoder.finish
  rw [← h.refusal?, ← h.ending?]
  split
  · exact Alike.fail (t := ⟨d, .ofBuffer buffer⟩) (u := ⟨e, .ofBuffer buffer⟩) h rfl _
  · exact Alike.fail (t := ⟨d, .ofBuffer buffer⟩) (u := ⟨e, .ofBuffer buffer⟩) h rfl _
  · next hnone _ =>
    have hne := stage_ne_failed_of_refusal? hnone
    have hne' : d.settle.stage ≠ .failed := by rwa [stage_settle]
    obtain ⟨hsink, hflush⟩ := (h.settle hne).flush (s := .ofBuffer buffer) hne'
    have hblocked := hflush.hasByte hne'
    dsimp only
    rw [Transfer.isBlocked, Transfer.isBlocked, ← hblocked, hsink]
    split_ifs
    · have hstop := hflush.stop hsink (.error .insufficientOutput : Except Error Nat)
      exact ⟨hstop.view, hstop.decoder.weaken⟩
    · exact hflush.closeFinished hne' hsink _

theorem AlikeAfter.map {α β : Type} {r q : Outcome α} (h : AlikeAfter loose r q) (f : α → β) :
    AlikeAfter loose { r with result := r.result.map f } { q with result := q.result.map f } := by
  refine ⟨?_, h.decoder⟩
  have hview := h.view
  unfold Outcome.view at hview ⊢
  rw [View.mk.injEq] at hview
  rw [View.mk.injEq]
  exact ⟨congrArg (Except.map f) hview.1, hview.2⟩

theorem Alike.reset_eq (h : Alike loose d e) : d.reset = e.reset := by
  unfold Decoder.reset
  rw [h.options]

/-- A call looks the same on both decoders, unless it adds a symbol to leftovers. -/
theorem Alike.call (h : Alike loose d e) {c : Call} (hc : loose → ¬c.OpensWithSymbol d.options) :
    AlikeAfter loose (d.call c) (e.call c) := by
  cases c with
  | convert buffer text => exact (h.convert buffer text hc).map Answer.converted
  | finish buffer => exact (h.finish buffer).map Answer.finished
  | reset =>
    unfold Decoder.call
    rw [h.reset_eq]
    exact ⟨rfl, .refl _ Reservoir.wellFormed_empty⟩

/-- Sessions look the same, unless they go on with a symbol before they start again. -/
theorem Alike.views_eq (h : Alike loose d e) {calls : List Call}
    (hcalls : loose → ∀ c ∈ calls.takeWhile (· ≠ .reset), ¬c.OpensWithSymbol d.options) :
    d.views calls = e.views calls := by
  induction calls generalizing loose d e with
  | nil => rfl
  | cons c calls ih =>
    rw [views_cons, views_cons]
    by_cases hc : c = .reset
    · subst hc
      unfold Decoder.call
      rw [h.reset_eq]
    · rw [List.takeWhile_cons_of_pos (by simpa using hc)] at hcalls
      have hcall := h.call fun hl => hcalls hl c List.mem_cons_self
      rw [hcall.view, ih hcall.decoder fun hl c' hc' => ?_]
      rw [Decoder.options_call]
      exact hcalls hl c' (List.mem_cons_of_mem _ hc')

end Alike

/-! ## An end without room -/

section Blocked

variable {d : Decoder} {buffer : Bytes}

theorem refusal?_ne_insufficientOutput (d : Decoder) : d.refusal? ≠ some .insufficientOutput := by
  unfold refusal?
  split <;> nofun

theorem ending?_ne_insufficientOutput (d : Decoder) : d.ending? ≠ some .insufficientOutput := by
  unfold ending?
  split
  · nofun
  · nofun
  · split_ifs <;> nofun
  · split_ifs <;> nofun
  · nofun

/-- An end without room drops the leftovers of a text that may end, and does nothing else. -/
theorem blocked_finish (hd : d.reservoir.WellFormed)
    (h : (d.finish buffer).result = .error .insufficientOutput) :
    d.refusal? = none ∧ d.reservoir.hasByte = true ∧
      (d.finish buffer).decoder = { d.settle with outputLength := 0 } := by
  unfold Decoder.finish at h ⊢
  split at h
  · next x hrefusal =>
    rw [show x = Error.insufficientOutput from Except.error.inj h] at hrefusal
    exact absurd hrefusal d.refusal?_ne_insufficientOutput
  · next x _ hending =>
    rw [show x = Error.insufficientOutput from Except.error.inj h] at hending
    exact absurd hending d.ending?_ne_insufficientOutput
  · next hrefusal hending =>
    dsimp only at h ⊢
    split_ifs at h with hb
    · obtain rfl : buffer = [] :=
        Reservoir.room_eq_nil_of_hasByte_drain (wellFormed_settle hd) hb
      refine ⟨hrefusal, (hasByte_settle d).symm.trans hb, ?_⟩
      rw [if_pos hb]
      rfl
    · cases h

/-- A decoder is alike after an end without room. -/
theorem alike_finish (hd : d.reservoir.WellFormed)
    (h : (d.finish buffer).result = .error .insufficientOutput) :
    Alike d.HasLeftovers (d.finish buffer).decoder d := by
  obtain ⟨-, -, hdecoder⟩ := blocked_finish hd h
  rw [hdecoder]
  refine ⟨options_settle d, stage_settle d, wellFormed_settle hd, hd, fun _ => ?_,
    fun _ hloose => ?_⟩
  · show d.settle.reservoir.dropPartial = _
    rw [reservoir_settle]
    split_ifs
    · exact Reservoir.dropPartial_dropPartial hd
    · rfl
  · show d.settle.reservoir = d.reservoir
    rw [reservoir_settle]
    split_ifs with hshort
    · refine Reservoir.dropPartial_of_mod hd (Decidable.by_contra fun hmod => hloose ?_)
      exact ⟨⟨hshort, hmod⟩, (stage_settle d).symm ▸ hshort⟩
    · rfl

/-- With some room, a symbol is taken between two flushes. -/
theorem exists_convert_symbol (hd : d.reservoir.WellFormed) (hrefusal : d.refusal? = none) {n : Nat}
    (hcount : d.stage.count? = some n) (hroom : buffer ≠ []) {v : Nat} (hv : v < 64) :
    let t : Transfer := Transfer.flush ⟨d, .ofBuffer buffer⟩
    ∃ d', d'.reservoir = t.decoder.reservoir.push v ∧
      (d.convert buffer [d.options.alphabet.symbol v]).result =
        .ok ⟨1, (Transfer.flush ⟨d', t.sink⟩).sink.count⟩ := by
  intro t
  have hfree : t.isBlocked = false := Reservoir.not_hasByte_drain hd #[] hroom
  obtain ⟨d', htake, hreservoir⟩ : ∃ d', t.decoder.take (d.options.alphabet.symbol v) = .ok d' ∧
      d'.reservoir = t.decoder.reservoir.push v := by
    have hcount' : t.decoder.stage.count? = some n := hcount
    have hvalue : t.decoder.options.alphabet.value? (d.options.alphabet.symbol v) = some v :=
      d.options.alphabet.value?_symbol hv
    unfold Decoder.take takeSymbol
    rw [hvalue, hcount']
    exact ⟨_, rfl, rfl⟩
  refine ⟨d', hreservoir, ?_⟩
  unfold Decoder.convert
  rw [hrefusal]
  unfold Decoder.feed
  show (if t.isBlocked = true then _ else _ : Outcome Progress).result = _
  rw [hfree, htake]
  unfold Decoder.feed
  rfl

/-- One symbol shows how many bits there were. -/
theorem result_convert_symbol (hd : d.reservoir.WellFormed) (hrefusal : d.refusal? = none) {n : Nat}
    (hcount : d.stage.count? = some n) {v : Nat} (hv : v < 64) :
    (d.convert [0, 0] [d.options.alphabet.symbol v]).result =
      .ok ⟨1, (d.reservoir.size.toNat + 6) / 8⟩ := by
  have hroom : [(0 : UInt8), 0] ≠ [] := List.cons_ne_nil _ _
  obtain ⟨d', hreservoir, hresult⟩ := exists_convert_symbol hd hrefusal hcount hroom hv
  let t : Transfer := Transfer.flush ⟨d, .ofBuffer [0, 0]⟩
  let u : Transfer := Transfer.flush ⟨d', t.sink⟩
  have hfirst : Reservoir.Drained d.reservoir #[] (t.decoder.reservoir, t.sink) :=
    Reservoir.drained hd #[] [0, 0]
  have hfree : t.isBlocked = false := Reservoir.not_hasByte_drain hd #[] hroom
  have hpush : d'.reservoir.WellFormed := hreservoir ▸ hfirst.wellFormed.push hfree hv
  have hsecond : Reservoir.Drained d'.reservoir t.sink.written (u.decoder.reservoir, u.sink) :=
    Reservoir.drained hpush t.sink.written t.sink.room
  have hsize : 8 * u.sink.count + u.decoder.reservoir.size.toNat = d.reservoir.size.toNat + 6 := by
    have hfirst' : 8 * t.sink.count + t.decoder.reservoir.size.toNat = d.reservoir.size.toNat := by
      rw [hfirst.size, Array.size_empty]
      omega
    have hlt := Reservoir.size_lt_of_not_hasByte hfree
    have hsix : d'.reservoir.size.toNat = t.decoder.reservoir.size.toNat + 6 := by
      rw [hreservoir]
      exact Reservoir.toNat_size_push (Nat.lt_trans hlt (by decide)) v
    rw [hsecond.size, hsix, ← hfirst', Nat.add_assoc]
    rfl
  have hlt : u.decoder.reservoir.size.toNat < 8 := by
    refine Reservoir.size_lt_of_not_hasByte (Bool.eq_false_iff.2 fun hb => ?_)
    -- A byte that waits would be the third, and there are not enough bits for it.
    have hfull : u.sink.count = 2 := by
      have hlength := length_written_flush (t := ⟨d', t.sink⟩) hpush hb
      rwa [length_buffer_flush] at hlength
    have h8 := Reservoir.hasByte_iff.1 hb
    have hle := hd.size_le
    omega
  rw [hresult, show u.sink.count = (d.reservoir.size.toNat + 6) / 8 by omega]

/-- Leftovers that were dropped are missing in a session that goes on with a symbol. -/
theorem exists_views_ne (hd : d.reservoir.WellFormed)
    (h : (d.finish buffer).result = .error .insufficientOutput) (hleft : d.HasLeftovers) :
    ∃ calls, (d.finish buffer).decoder.views calls ≠ d.views calls := by
  obtain ⟨hrefusal, hbyte, hdecoder⟩ := blocked_finish hd h
  have halike := alike_finish hd h
  have hsize : (d.finish buffer).decoder.reservoir.size.toNat =
      d.reservoir.size.toNat - d.reservoir.size.toNat % 8 := by
    rw [hdecoder]
    show d.settle.reservoir.size.toNat = _
    rw [reservoir_settle, if_pos hleft.1, Reservoir.toNat_size_dropPartial]
  obtain ⟨n, hcount⟩ : ∃ n, d.stage.count? = some n := by
    rcases hleft.1 with hstage | hstage <;> rw [hstage] <;> exact ⟨_, rfl⟩
  refine ⟨[.convert [0, 0] [d.options.alphabet.symbol 0]], fun heq => ?_⟩
  rw [views_cons, views_cons] at heq
  have hresult := congrArg View.result (List.cons.inj heq).1
  have hwith := result_convert_symbol hd hrefusal hcount (v := 0) (by decide)
  have hwithout := result_convert_symbol halike.wellFormed (halike.refusal?.trans hrefusal)
    (halike.stage ▸ hcount) (v := 0) (by decide)
  rw [halike.options, hsize] at hwithout
  unfold Outcome.view Decoder.call at hresult
  dsimp only at hresult
  rw [hwith, hwithout] at hresult
  have hwritten := Answer.converted.inj (Except.ok.inj hresult)
  rw [Progress.mk.injEq] at hwritten
  have h8 := Reservoir.hasByte_iff.1 hbyte
  have hle := hd.size_le
  have heven := hd.size_even
  have hmod := hleft.2
  omega

end Blocked

end Decoder

/-! ## Sessions after an end without room -/

/-- **Trying an end again.** Whatever came before, later calls cannot tell that the end of a text
was tried without room, if and only if there were no leftovers. With leftovers they cannot tell
either unless one of them goes on with a symbol, so trying again with more room is safe. -/
theorem views_after_finish (o : Options) (past : List Call) (buffer : Bytes)
    (h : (((Decoder.new o).after past).finish buffer).result = .error .insufficientOutput) :
    let d := (Decoder.new o).after past
    let tried := (d.finish buffer).decoder
    ((∀ calls, tried.views calls = d.views calls) ↔ ¬d.HasLeftovers) ∧
      ∀ calls, (∀ c ∈ calls.takeWhile (· ≠ .reset), ¬c.OpensWithSymbol o) →
        tried.views calls = d.views calls := by
  intro d tried
  have hwf : d.reservoir.WellFormed := Decoder.wellFormed_after_new o past
  have halike : Decoder.Alike d.HasLeftovers tried d := Decoder.alike_finish hwf h
  have hoptions : tried.options = o := halike.options.trans (Decoder.options_after _ past)
  refine ⟨⟨fun hsame hleft => ?_, fun hno calls => ?_⟩, fun calls hcalls => ?_⟩
  · obtain ⟨calls, hne⟩ := Decoder.exists_views_ne hwf h hleft
    exact hne (hsame calls)
  · exact halike.views_eq fun hleft => absurd hleft hno
  · refine halike.views_eq fun _ => ?_
    rw [hoptions]
    exact hcalls

theorem views_after_finish_two_symbols :
    let o : Options := { isPadded := false }
    let d := (Decoder.new o).after [.convert [] [0x2F, 0x77]]
    let tried := (d.finish []).decoder
    (d.finish []).result = .error .insufficientOutput ∧
      ((∀ calls, tried.views calls = d.views calls) ↔ ¬d.HasLeftovers) ∧
      ∀ calls, (∀ c ∈ calls.takeWhile (· ≠ .reset), ¬c.OpensWithSymbol o) →
        tried.views calls = d.views calls := by
  have hblocked : (((Decoder.new { isPadded := false }).after [.convert [] [0x2F, 0x77]]).finish
      []).result = .error .insufficientOutput := by
    decide +kernel
  exact ⟨hblocked, views_after_finish _ _ _ hblocked⟩

/-- The bits `1111` are dropped, and two more symbols do not complete the second byte. -/
theorem views_after_finish_ne :
    let d := (Decoder.new { isPadded := false }).after [.convert [] [0x2F, 0x77]]
    let calls : List Call := [.convert [0x23, 0x23, 0x23] [0x41, 0x41]]
    (d.finish []).result = .error .insufficientOutput ∧
      d.views calls = [⟨.ok (.converted ⟨2, 3⟩), [0xFF, 0, 0], .symbols 0, 3⟩] ∧
      (d.finish []).decoder.views calls =
        [⟨.ok (.converted ⟨2, 2⟩), [0xFF, 0, 0x23], .symbols 0, 2⟩] := by
  decide +kernel

end TextCodec.Base64
