import TextCodec.Proofs.Base64.Failures

/-!
# What a call writes

A call writes to the front of its buffer, says how many bytes it wrote, and leaves the places behind
them as they were (`Outcome.Touches`). That holds of every call, also of one that fails.

The bytes that the calls of a session write are those that its text encodes, in order. A
`Transcript` keeps the text that has been read since the last reset, and what has been written for
it. What has been written is all that the text encodes but for at most one byte that is held back
(`Relays.exists_held`), as long as no text is fed right after an end that found no room
(`Decoder.Orderly`): such an end has dropped bits.

1. Every call keeps the places of its buffer in order (`Decoder.touches_call`).
2. A call goes on with the text where the calls before it stopped (`Relays.call`), and so do all of
   them in turn (`Relays.after`).
-/

namespace TextCodec.Base64

/-! ## Buffers -/

/-- The places left of a sink are those of the buffer, as they were. -/
structure Sink.Fills (s : Sink) (buffer : Bytes) : Prop where
  count_le : s.count ≤ buffer.length
  room : s.room = buffer.drop s.count

theorem Sink.fills_ofBuffer (buffer : Bytes) : (Sink.ofBuffer buffer).Fills buffer :=
  ⟨Nat.zero_le _, rfl⟩

theorem Reservoir.fills_drain (r : Reservoir) {written : Array UInt8} {room buffer : Bytes}
    (h : Sink.Fills ⟨written, room⟩ buffer) : (r.drain written room).2.Fills buffer := by
  induction room generalizing r written with
  | nil => exact h
  | cons old room ih =>
    have hroom : old :: room = buffer.drop written.size := h.room
    have hlength := congrArg List.length hroom
    rw [List.length_cons, List.length_drop] at hlength
    have hnext : Sink.Fills ⟨written.push r.firstByte, room⟩ buffer := by
      have hcount : (written.push r.firstByte).size = written.size + 1 := Array.size_push _
      refine ⟨?_, ?_⟩
      · show (written.push r.firstByte).size ≤ _
        omega
      · show room = buffer.drop (written.push r.firstByte).size
        rw [hcount, ← List.tail_drop, ← hroom, List.tail_cons]
    unfold drain
    split_ifs
    · exact ih r.dropByte hnext
    · exact h

/-- What a call does to its buffer, where an answer says how many bytes were written. -/
structure Outcome.Touches {α : Type} (r : Outcome α) (written : α → Nat) (buffer : Bytes) :
    Prop where
  outputLength_le : r.decoder.outputLength ≤ buffer.length
  length : r.buffer.length = buffer.length
  /-- The places behind the bytes that were written are as they were. -/
  rest : r.buffer.drop r.decoder.outputLength = buffer.drop r.decoder.outputLength
  answer : ∀ a, r.result = .ok a → written a = r.decoder.outputLength

section Touches

variable {α : Type} {written : α → Nat} {buffer : Bytes} {t : Transfer}

theorem Outcome.Touches.map {β : Type} {r : Outcome α} (h : r.Touches written buffer)
    {written' : β → Nat} {f : α → β} (hf : ∀ a, written' (f a) = written a) :
    Outcome.Touches { r with result := r.result.map f } written' buffer where
  outputLength_le := h.outputLength_le
  length := h.length
  rest := h.rest
  answer b hb := by
    cases hr : r.result with
    | error e =>
      rw [hr] at hb
      cases hb
    | ok a =>
      rw [hr] at hb
      cases hb
      exact (hf a).trans (h.answer a hr)

theorem Transfer.touches_close (h : t.sink.Fills buffer) (stage : Stage) (result : Except Error α)
    (hresult : ∀ a, result = .ok a → written a = t.sink.count) :
    (t.close stage result).Touches written buffer where
  outputLength_le := h.count_le
  length := by
    have hle := h.count_le
    show (t.sink.written.toList ++ t.sink.room).length = _
    rw [List.length_append, h.room, List.length_drop, Array.length_toList]
    exact Nat.add_sub_cancel' hle
  rest := by
    show (t.sink.written.toList ++ t.sink.room).drop t.sink.written.size = _
    rw [← Array.length_toList, List.drop_left]
    exact h.room
  answer := hresult

theorem Transfer.touches_close_ok (h : t.sink.Fills buffer) (stage : Stage) {a : α}
    (ha : written a = t.sink.count) : (t.close stage (.ok a)).Touches written buffer :=
  touches_close h _ _ fun _ hb => Except.ok.inj hb ▸ ha

theorem Transfer.touches_fail (h : t.sink.Fills buffer) (e : Error) :
    (t.fail e).Touches written buffer :=
  touches_close h _ _ nofun

theorem Transfer.fills_flush (h : t.sink.Fills buffer) : t.flush.sink.Fills buffer :=
  t.decoder.reservoir.fills_drain h

end Touches

/-- How many bytes an answer says were written. -/
def Answer.written : Answer → Nat
  | .converted progress => progress.written
  | .finished n => n
  | .reset => 0

namespace Decoder

section Calls

variable {buffer : Bytes}

theorem touches_feed (text : Bytes) {t : Transfer} (h : t.sink.Fills buffer) (consumed : Nat) :
    (feed t consumed text).Touches Progress.written buffer := by
  induction text generalizing t consumed with
  | nil => exact Transfer.touches_close_ok (Transfer.fills_flush h) _ rfl
  | cons b text ih =>
    have hflush := Transfer.fills_flush h
    unfold feed
    dsimp only
    split_ifs
    · exact Transfer.touches_close_ok hflush _ rfl
    · split
      · exact Transfer.touches_fail hflush _
      · next d' _ => exact ih (t := ⟨d', t.flush.sink⟩) hflush (consumed + 1)

theorem touches_convert (d : Decoder) (buffer text : Bytes) :
    (d.convert buffer text).Touches Progress.written buffer := by
  have hfills : (Transfer.mk d (.ofBuffer buffer)).sink.Fills buffer := Sink.fills_ofBuffer buffer
  unfold convert
  split
  · exact Transfer.touches_fail hfills _
  · exact touches_feed text hfills 0

theorem touches_finish (d : Decoder) (buffer : Bytes) : (d.finish buffer).Touches id buffer := by
  have hfills : (Transfer.mk d (.ofBuffer buffer)).sink.Fills buffer := Sink.fills_ofBuffer buffer
  have hflush : (Transfer.flush ⟨d.settle, .ofBuffer buffer⟩).sink.Fills buffer :=
    Transfer.fills_flush (Sink.fills_ofBuffer buffer)
  unfold finish
  split
  · exact Transfer.touches_fail hfills _
  · exact Transfer.touches_fail hfills _
  · dsimp only
    split_ifs
    · exact Transfer.touches_close hflush _ _ nofun
    · exact Transfer.touches_close_ok hflush _ rfl

/-- A call writes to the front of its buffer, as many bytes as it says. -/
theorem touches_call (d : Decoder) (c : Call) : (d.call c).Touches Answer.written c.buffer := by
  cases c with
  | convert buffer text => exact (d.touches_convert buffer text).map fun _ => rfl
  | finish buffer => exact (d.touches_finish buffer).map fun _ => rfl
  | reset => exact ⟨Nat.le_refl 0, rfl, rfl, fun a ha => by cases ha; rfl⟩

end Calls

/-! ## Texts of sessions -/

/-- The part of a text that a call does not leave to be fed again. A decoder that takes no calls
reads nothing, and a call that fails has read on to the byte that it refuses. -/
def portion (d : Decoder) (buffer text : Bytes) : Bytes :=
  match d.refusal?, (d.convert buffer text).result with
  | some _, _ => []
  | none, .ok progress => text.take progress.consumed
  | none, .error _ => text

end Decoder

/-- A session since its last reset. -/
structure Transcript where
  decoder : Decoder
  /-- The text that has been read. -/
  text : Bytes := []
  /-- The bytes that have been written. -/
  decoded : Bytes := []

namespace Transcript

def start (o : Options) : Transcript := { decoder := .new o }

def call (t : Transcript) (c : Call) : Transcript :=
  let r := t.decoder.call c
  match c with
  | .convert buffer text =>
    ⟨r.decoder, t.text ++ t.decoder.portion buffer text, t.decoded ++ r.output⟩
  | .finish _ => ⟨r.decoder, t.text, t.decoded ++ r.output⟩
  | .reset => { decoder := r.decoder }

def after (t : Transcript) (calls : List Call) : Transcript := calls.foldl call t

theorem decoder_call (t : Transcript) (c : Call) :
    (t.call c).decoder = (t.decoder.call c).decoder := by
  cases c <;> rfl

theorem options_call (t : Transcript) (c : Call) :
    (t.call c).decoder.options = t.decoder.options := by
  rw [decoder_call, Decoder.options_call]

theorem decoder_after (t : Transcript) (calls : List Call) :
    (t.after calls).decoder = t.decoder.after calls := by
  induction calls generalizing t with
  | nil => rfl
  | cons c calls ih =>
    show ((t.call c).after calls).decoder = (t.decoder.call c).decoder.after calls
    rw [ih, decoder_call]

theorem decoded_call (t : Transcript) {c : Call} (hc : c ≠ .reset) :
    (t.call c).decoded = t.decoded ++ (t.decoder.call c).output := by
  cases c with
  | convert buffer text => rfl
  | finish buffer => rfl
  | reset => exact absurd rfl hc

end Transcript

/-! ## What is written is what the text encodes -/

/-- Whether the call feeds text. -/
def Call.feedsText : Call → Bool
  | .convert _ _ => true
  | .finish _ | .reset => false

/-- No text is fed right after an end that found no room. -/
def Decoder.Orderly (d : Decoder) : (calls : List Call) → Prop
  | [] => True
  | c :: calls =>
    ((d.call c).result = .error .insufficientOutput → calls.head?.any Call.feedsText = false) ∧
      (d.call c).decoder.Orderly calls

instance Decoder.decidableOrderly :
    (d : Decoder) → (calls : List Call) → Decidable (d.Orderly calls)
  | _, [] => isTrue trivial
  | d, c :: calls =>
    have := decidableOrderly (d.call c).decoder calls
    inferInstanceAs (Decidable (_ ∧ _))

/-- What was written is what the text encodes, except for what the decoder holds back. The end of
the text may just have been tried without room. -/
inductive Relays (o : Options) (tried : Prop) (t : Transcript) : Prop
  /-- More text may follow. Leftovers may have been dropped if the end has been tried. -/
  | reading (e : Decoder) (c : Content) (read : ({} : Content).scan o t.text = (c, none))
    (tracks : Tracks o e t.decoded c) (alike : Decoder.Alike tried t.decoder e)
  /-- The decoder takes no more calls. -/
  | closed (options : t.decoder.options = o) (refused : t.decoder.refusal? ≠ none) (held : Bytes)
    (length_le : held.length ≤ 1) (payload : payload o t.text = t.decoded ++ held)

theorem payload_of_scan {o : Options} {text : Bytes} {c : Content} {fault : Option Error}
    (h : ({} : Content).scan o text = (c, fault)) : payload o text = c.payload := by
  unfold payload
  rw [h]

theorem Outcome.output_of_view {α : Type} {r q : Outcome α} (h : r.view = q.view) :
    r.output = q.output :=
  congrArg (fun v : View α => v.buffer.take v.outputLength) h

namespace Decoder

section Refusal

variable {d : Decoder} {e : Error}

theorem output_of_refusal? (h : d.refusal? = some e) {c : Call} (hc : c ≠ .reset) :
    (d.call c).output = [] :=
  congrArg (fun v : View Answer => v.buffer.take v.outputLength) (view_call_of_refusal? h hc)

theorem portion_of_refusal? (h : d.refusal? = some e) (buffer text : Bytes) :
    d.portion buffer text = [] := by
  unfold portion
  rw [h]

theorem refusal?_ne_none_iff : d.refusal? ≠ none ↔ d.stage = .failed ∨ d.stage = .finished := by
  unfold refusal?
  cases d.stage <;> simp

end Refusal

end Decoder

namespace Relays

variable {o : Options} {tried : Prop} {t : Transcript}

theorem start (o : Options) (tried : Prop) : Relays o tried (.start o) :=
  .reading (.new o) {} rfl (tracks_new o) (.refl _ Reservoir.wellFormed_empty)

/-- At most one byte is held back. -/
theorem exists_held (h : Relays o tried t) :
    ∃ held : Bytes, held.length ≤ 1 ∧ payload o t.text = t.decoded ++ held := by
  cases h with
  | reading e c read tracks alike =>
    refine ⟨Bits.pack e.reservoir.toBits, ?_, (payload_of_scan read).trans tracks.payload⟩
    have hle := tracks.wellFormed.size_le
    rw [Bits.length_pack, Reservoir.length_toBits]
    omega
  | closed options refused held length_le payload => exact ⟨held, length_le, payload⟩

theorem options (h : Relays o tried t) : t.decoder.options = o := by
  cases h with
  | reading e c read tracks alike => exact alike.options.trans tracks.options
  | closed options refused held length_le payload => exact options

variable {tried' : Prop}

/-- A text is fed to a decoder that tracks the one before it. -/
theorem convert {c : Content} (read : ({} : Content).scan o t.text = (c, none))
    (tracks : Tracks o t.decoder t.decoded c) (buffer text : Bytes) :
    Relays o tried' (t.call (.convert buffer text)) := by
  have hnone := tracks.refusal?_eq_none
  have hoptions := (t.options_call (.convert buffer text)).trans tracks.options
  cases convert_fed tracks buffer text with
  | taken c' done rest split read' tracks' result blocked full =>
    have hportion : t.decoder.portion buffer text = done := by
      unfold Decoder.portion
      rw [hnone, result, split, Nat.zero_add]
      exact List.take_left
    refine .reading _ c' ?_ tracks' (.refl _ tracks'.wellFormed)
    show ({} : Content).scan o (t.text ++ t.decoder.portion buffer text) = _
    rw [hportion, Content.scan_append_of_none read, read']
  | refused c' done rest b e split read' error result stage output =>
    have hportion : t.decoder.portion buffer text = text := by
      unfold Decoder.portion
      rw [hnone, result]
    refine .closed hoptions (Decoder.refusal?_ne_none_iff.2 (.inl stage)) [] (by decide) ?_
    have hscan :
        ({} : Content).scan o (t.text ++ t.decoder.portion buffer text) = (c', some e) := by
      rw [hportion, split, Content.scan_append_of_none read,
        Content.scan_append_of_error read' error]
    rw [List.append_nil]
    exact (payload_of_scan hscan).trans output.symm

/-- The end of a text writes what is held back. Without room it leaves a decoder that is alike. -/
theorem finish (h : Relays o tried t) {e : Decoder} {c : Content}
    (read : ({} : Content).scan o t.text = (c, none)) (tracks : Tracks o e t.decoded c)
    (alike : Decoder.Alike tried t.decoder e) (buffer : Bytes)
    (htried : (t.decoder.finish buffer).result = .error .insufficientOutput → tried') :
    Relays o tried' (t.call (.finish buffer)) := by
  have hoptions := (t.options_call (.finish buffer)).trans h.options
  have hview := (alike.finish buffer).view
  have hresult := congrArg View.result hview
  have hstage := congrArg View.stage hview
  have houtput := Outcome.output_of_view hview
  have hdecoded : (t.call (.finish buffer)).decoded = t.decoded ++ (e.finish buffer).output :=
    congrArg (t.decoded ++ ·) houtput
  cases finish_ended tracks buffer with
  | refused x ending result stage output =>
    obtain ⟨held, hlength, hpayload⟩ := h.exists_held
    have hrefused := Decoder.refusal?_ne_none_iff.2 (.inl (hstage.trans stage))
    refine .closed hoptions hrefused held hlength ?_
    rw [hdecoded, output, List.append_nil]
    exact hpayload
  | blocked ending result stage waits room =>
    subst room
    have hblocked := hresult.trans result
    have hzero := Nat.le_zero.1 (e.touches_finish []).outputLength_le
    have hnil : (e.finish []).output = [] := by
      rw [Outcome.output, hzero, List.take_zero]
    have hback := Decoder.alike_finish alike.wellFormed hblocked
    have halike : Decoder.Alike tried' (t.decoder.finish []).decoder e :=
      (hback.mono fun _ => htried hblocked).trans (alike.mono fun _ => htried hblocked)
    refine .reading e c read ?_ halike
    rw [hdecoded, hnil, List.append_nil]
    exact tracks
  | complete ending result stage output =>
    have hrefused := Decoder.refusal?_ne_none_iff.2 (.inr (hstage.trans stage))
    refine .closed hoptions hrefused [] (by decide) ?_
    rw [hdecoded, output, List.append_nil]
    exact payload_of_scan read

/-- A decoder that takes no calls neither reads nor writes. -/
theorem refused {held : Bytes} (hoptions : t.decoder.options = o)
    (hrefused : t.decoder.refusal? ≠ none) (hlength : held.length ≤ 1)
    (hpayload : payload o t.text = t.decoded ++ held) {c : Call} (hc : c ≠ .reset) :
    Relays o tried' (t.call c) := by
  obtain ⟨e, he⟩ := Option.ne_none_iff_exists'.1 hrefused
  have hcall : (t.call c).decoder = (t.decoder.call c).decoder := t.decoder_call c
  have hstage : (t.decoder.call c).decoder.stage = .failed :=
    congrArg View.stage (Decoder.view_call_of_refusal? he hc)
  have htext : (t.call c).text = t.text := by
    cases c with
    | convert buffer text =>
      show t.text ++ t.decoder.portion buffer text = _
      rw [Decoder.portion_of_refusal? he, List.append_nil]
    | finish buffer => rfl
    | reset => exact absurd rfl hc
  refine .closed ((t.options_call c).trans hoptions) ?_ held hlength ?_
  · rw [hcall]
    exact Decoder.refusal?_ne_none_iff.2 (.inl hstage)
  · rw [htext, t.decoded_call hc, Decoder.output_of_refusal? he hc, List.append_nil]
    exact hpayload

/-- A call goes on where the calls before it stopped. -/
theorem call (h : Relays o tried t) {c : Call} (hc : tried → c.feedsText = false) :
    Relays o ((t.decoder.call c).result = .error .insufficientOutput) (t.call c) := by
  by_cases hreset : c = .reset
  · subst hreset
    have hnew : t.call .reset = .start o := by
      show ({ decoder := .new t.decoder.options } : Transcript) = _
      rw [h.options]
      rfl
    rw [hnew]
    exact .start o _
  · cases h with
    | reading e content read tracks alike =>
      cases c with
      | convert buffer text =>
        have hno : ¬tried := fun htried => nomatch hc htried
        exact .convert read (alike.tracks hno tracks) buffer text
      | finish buffer =>
        refine .finish (.reading e content read tracks alike) read tracks alike buffer fun hr => ?_
        exact congrArg (Except.map Answer.finished) hr
      | reset => exact absurd rfl hreset
    | closed options refused' held length_le payload =>
      exact .refused options refused' length_le payload hreset

theorem after {calls : List Call} (h : Relays o tried t)
    (hfirst : tried → calls.head?.any Call.feedsText = false) (hcalls : t.decoder.Orderly calls) :
    ∃ tried', Relays o tried' (t.after calls) := by
  induction calls generalizing t tried with
  | nil => exact ⟨tried, h⟩
  | cons c calls ih =>
    have hcall := h.call hfirst
    refine ih hcall hcalls.1 ?_
    rw [t.decoder_call]
    exact hcalls.2

end Relays

/-- In order, a session has written what its text encodes, except for at most one byte. -/
theorem Decoder.Orderly.exists_held {o : Options} {calls : List Call}
    (h : (Decoder.new o).Orderly calls) :
    ∃ held : Bytes, held.length ≤ 1 ∧
      payload o ((Transcript.start o).after calls).text =
        ((Transcript.start o).after calls).decoded ++ held := by
  obtain ⟨tried, hrelays⟩ := (Relays.start o False).after nofun h
  exact hrelays.exists_held

/-- **Output of a call.** Whatever was called before, a call that succeeds or fails has written as
many bytes as it says to the front of its buffer, and left all places behind them as they were. If
no text was fed right after an end that found no room, then these bytes go on with what the text
encodes where the calls before stopped: together they are all of it but for at most one byte. -/
theorem output_after (o : Options) (past : List Call) (c : Call) :
    let d := (Decoder.new o).after past
    let r := d.call c
    (r.decoder.outputLength ≤ c.buffer.length ∧ r.buffer.length = c.buffer.length ∧
        ∀ i, r.decoder.outputLength ≤ i → r.buffer[i]? = c.buffer[i]?) ∧
      (∀ answer, r.result = .ok answer → answer.written = r.decoder.outputLength) ∧
      (c ≠ .reset → (Decoder.new o).Orderly (past ++ [c]) →
        let before := (Transcript.start o).after past
        let now := before.call c
        ∃ held : Bytes, held.length ≤ 1 ∧
          payload o now.text =
            before.decoded ++ r.buffer.take r.decoder.outputLength ++ held) := by
  intro d r
  have htouches : r.Touches Answer.written c.buffer := d.touches_call c
  refine ⟨⟨htouches.outputLength_le, htouches.length, fun i hi => ?_⟩, htouches.answer,
    fun hc horderly => ?_⟩
  · have hrest := congrArg (·[i - r.decoder.outputLength]?) htouches.rest
    simp only [List.getElem?_drop, Nat.add_sub_cancel' hi] at hrest
    exact hrest
  · intro before now
    have hdecoder : before.decoder = d := (Transcript.start o).decoder_after past
    obtain ⟨held, hlength, hpayload⟩ := horderly.exists_held
    have hnow : (Transcript.start o).after (past ++ [c]) = now := List.foldl_append
    rw [hnow] at hpayload
    refine ⟨held, hlength, hpayload.trans ?_⟩
    rw [before.decoded_call hc, hdecoder]
    rfl

/-- An end is tried without room, and then again with more room than it needs. -/
theorem output_after_end_without_room :
    let o : Options := { isPadded := false }
    let past : List Call := [.convert [] [0x2F, 0x77], .finish []]
    let c : Call := .finish [0x23, 0x23]
    let d := (Decoder.new o).after past
    let r := d.call c
    (r.result = .ok (.finished 1) ∧ r.buffer = [0xFF, 0x23] ∧ c ≠ .reset ∧
        (Decoder.new o).Orderly (past ++ [c])) ∧
      (r.decoder.outputLength ≤ c.buffer.length ∧ r.buffer.length = c.buffer.length ∧
        ∀ i, r.decoder.outputLength ≤ i → r.buffer[i]? = c.buffer[i]?) ∧
      Answer.written (.finished 1) = r.decoder.outputLength ∧
      let before := (Transcript.start o).after past
      let now := before.call c
      ∃ held : Bytes, held.length ≤ 1 ∧
        payload o now.text = before.decoded ++ r.buffer.take r.decoder.outputLength ++ held := by
  intro o past c d r
  have hresult : r.result = .ok (.finished 1) := by decide +kernel
  have horderly : (Decoder.new o).Orderly (past ++ [c]) := by decide +kernel
  obtain ⟨hbuffer, hanswer, hstream⟩ := output_after o past c
  exact ⟨⟨hresult, by decide +kernel, nofun, horderly⟩, hbuffer, hanswer _ hresult,
    hstream nofun horderly⟩

end TextCodec.Base64
