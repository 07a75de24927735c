import TextCodec.Base64.Length
import TextCodec.Base64.Stream
import TextCodec.Proofs.Base64.Tracking

/-!
# Pieces and buffers of any size

A schedule is a list of calls, each with a number of bytes to feed and a buffer. `Stream.follow`
makes them in turn on the text that is left, until one fails; `Stream.finishInto` ends the text.
However a schedule cuts the text and whatever room it gives, the stream ends as one that decodes the
whole text with a single call.

1. While no call has failed, the decoder tracks the content of the text read so far (`Running`).
2. A call that fails does so at the first byte of the text that is refused (`Refused`), so both the
   error and the bytes written depend on the text alone.
3. A stream that has read the whole text ends as `Content.ending?` says (`Running.ends`).
-/

namespace TextCodec.Base64

/-- How the decoding of a text ends: why the text is refused, if it is. -/
def verdict (o : Options) (text : Bytes) : Option Error :=
  match ({} : Content).scan o text with
  | (c, none) => c.ending? o
  | (_, some e) => some e

/-- The bytes that the symbols of a text encode, up to the first byte that is refused. -/
def payload (o : Options) (text : Bytes) : Bytes := (({} : Content).scan o text).1.payload

/-- The stage in which the decoding of a text ends. -/
def finalStage (fault : Option Error) : Stage := if fault.isSome then .failed else .finished

/-- The greatest length of a text. -/
def maxTextLength : Nat := maxLength / 2

/-- A call of a schedule. -/
structure Feeding where
  /-- How many bytes of the text that is left are fed. -/
  size : Nat
  /-- The buffer. -/
  buffer : Bytes
deriving DecidableEq, Repr

namespace Stream

/-- A stream that has read nothing. -/
def start (o : Options) : Stream := { decoder := .new o }

/-- Makes the calls of a schedule in turn, until one fails. Returns the text that is left. -/
def follow (s : Stream) (text : Bytes) : List Feeding → Stream × Bytes
  | [] => (s, text)
  | f :: schedule =>
    let r := s.decoder.convert f.buffer (text.take f.size)
    match r.result with
    | .error _ => (s.record r, text)
    | .ok progress => (s.record r).follow (text.drop progress.consumed) schedule

/-- Ends the text, unless a call has failed. -/
def finishInto (s : Stream) (buffer : Bytes) : Stream :=
  if s.fault.isSome then s else s.record (s.decoder.finish buffer)

/-- Feeds the whole text with one call. -/
def feedOnce (o : Options) (buffer text : Bytes) : Stream :=
  (start o).record ((start o).decoder.convert buffer text)

/-- Decodes the whole text with one call that feeds it, and one that ends it. -/
def decodeOnce (o : Options) (buffer last text : Bytes) : Stream :=
  (feedOnce o buffer text).finishInto last

/-! ## Streams between two calls -/

/-- The stream has read the text up to `rest`, and no call has failed. -/
structure Running (o : Options) (text : Bytes) (s : Stream) (rest : Bytes) (c : Content) :
    Prop where
  fault : s.fault = none
  read : ∃ done, text = done ++ rest ∧ ({} : Content).scan o done = (c, none)
  tracks : Tracks o s.decoder s.decoded c

/-- The stream has stopped at a byte that is refused. -/
structure Refused (o : Options) (text : Bytes) (s : Stream) (c : Content) (e : Error) :
    Prop where
  fault : s.fault = some e
  read : ({} : Content).scan o text = (c, some e)
  stage : s.decoder.stage = .failed
  decoded : s.decoded = c.payload

theorem running_start (o : Options) {text rest : Bytes} (h : text = rest) :
    Running o text (start o) rest {} :=
  ⟨rfl, ⟨[], h, rfl⟩, tracks_new o⟩

section Calls

variable {o : Options} {text : Bytes} {s : Stream} {c c' : Content} {done rest : Bytes}

theorem Running.taken {r : Outcome Progress} {progress : Progress}
    (h : Running o text s (done ++ rest) c) (read : c.scan o done = (c', none))
    (tracks : Tracks o r.decoder (s.decoded ++ r.output) c') (result : r.result = .ok progress) :
    Running o text (s.record r) rest c' := by
  obtain ⟨past, htext, hread⟩ := h.read
  refine ⟨?_, ⟨past ++ done, ?_, ?_⟩, tracks⟩
  · unfold record
    rw [result]
  · rw [htext, List.append_assoc]
  · rw [Content.scan_append_of_none hread, read]

theorem Running.refused {r : Outcome Progress} {b : UInt8} {e : Error}
    (h : Running o text s (done ++ b :: rest) c) (read : c.scan o done = (c', none))
    (error : c'.take o b = .error e) (result : r.result = .error e)
    (stage : r.decoder.stage = .failed) (output : s.decoded ++ r.output = c'.payload) :
    Refused o text (s.record r) c' e := by
  obtain ⟨past, htext, hread⟩ := h.read
  refine ⟨?_, ?_, stage, output⟩
  · unfold record
    rw [result]
  · rw [htext, Content.scan_append_of_none hread, Content.scan_append_of_error read error]

/-- However text is fed, the stream reads it up to where it stops. -/
theorem follow_running (schedule : List Feeding) (h : Running o text s rest c) :
    (∃ c', Running o text (s.follow rest schedule).1 (s.follow rest schedule).2 c') ∨
      ∃ c' e, Refused o text (s.follow rest schedule).1 c' e := by
  induction schedule generalizing s rest c with
  | nil => exact Or.inl ⟨c, h⟩
  | cons f schedule ih =>
    have hrest : rest = rest.take f.size ++ rest.drop f.size := (List.take_append_drop _ _).symm
    unfold follow
    cases convert_fed h.tracks f.buffer (rest.take f.size) with
    | taken c' done left split read tracks result blocked full =>
      rw [split, List.append_assoc] at hrest
      rw [hrest] at h
      have hdrop : rest.drop (0 + done.length) = left ++ rest.drop f.size := by
        rw [Nat.zero_add]
        conv_lhs => rw [hrest, List.drop_left]
      simp only [result, hdrop]
      exact ih (h.taken read tracks result)
    | refused c' done left b e split read error result stage output =>
      rw [split, List.append_assoc, List.cons_append] at hrest
      rw [hrest] at h
      simp only [result]
      exact Or.inr ⟨c', e, h.refused read error result stage output⟩

/-- How a stream ends that has followed a schedule to the end of the text. -/
structure Ends (o : Options) (text : Bytes) (fed s : Stream) : Prop where
  fault : s.fault = verdict o text
  stage : s.decoder.stage = finalStage (verdict o text)
  /-- A text that is not complete may leave a byte unwritten. -/
  held : ∃ held : Bytes, held.length ≤ 1 ∧ payload o text = s.decoded ++ held
  /-- It does so only if the byte was waiting for room when the text was ended. -/
  decoded : s.fault = none ∨ fed.fault ≠ none ∨ fed.decoder.reservoir.hasByte = false →
    s.decoded = payload o text

theorem Refused.ends {e : Error} (h : Refused o text s c e) (last : Bytes) :
    Ends o text s (s.finishInto last) := by
  have hfin : s.finishInto last = s := by
    unfold finishInto
    rw [h.fault]
    rfl
  have hverdict : verdict o text = some e := by
    unfold verdict
    rw [h.read]
  have hpayload : payload o text = s.decoded := by
    unfold payload
    rw [h.read, h.decoded]
  rw [hfin]
  refine ⟨h.fault.trans hverdict.symm, ?_, ⟨[], by decide, ?_⟩, fun _ => hpayload.symm⟩
  · rw [hverdict]
    exact h.stage
  · rw [hpayload, List.append_nil]

/-! ## Streams that have read the whole text -/

theorem Running.scan (h : Running o text s [] c) : ({} : Content).scan o text = (c, none) := by
  obtain ⟨done, htext, hread⟩ := h.read
  rw [htext, List.append_nil]
  exact hread

theorem Running.verdict (h : Running o text s [] c) : verdict o text = c.ending? o := by
  unfold TextCodec.Base64.verdict
  rw [h.scan]

theorem Running.payload (h : Running o text s [] c) : payload o text = c.payload := by
  unfold TextCodec.Base64.payload
  rw [h.scan]

theorem Running.finishInto (h : Running o text s rest c) (last : Bytes) :
    s.finishInto last = s.record (s.decoder.finish last) := by
  unfold Stream.finishInto
  rw [h.fault]
  rfl

/-- A stream ends as its content says, if a byte that waits has room. -/
theorem Running.ends (h : Running o text s [] c) {last : Bytes}
    (hroom : last ≠ [] ∨ s.decoder.reservoir.hasByte = false) :
    Ends o text s (s.finishInto last) := by
  rw [h.finishInto]
  cases finish_ended h.tracks last with
  | refused e ending result stage output =>
    have hfault : (s.record (s.decoder.finish last)).fault = some e := by
      unfold record
      rw [result]
    have hdecoded : (s.record (s.decoder.finish last)).decoded = s.decoded := by
      show s.decoded ++ (s.decoder.finish last).output = _
      rw [output, List.append_nil]
    refine ⟨?_, ?_, ⟨Bits.pack s.decoder.reservoir.toBits, ?_, ?_⟩, ?_⟩
    · rw [hfault, h.verdict, ending]
    · rw [h.verdict, ending]
      exact stage
    -- Of the bits that are left, at most one byte is whole.
    · have hs := h.tracks.wellFormed.size_le
      rw [Bits.length_pack, Reservoir.length_toBits]
      omega
    · rw [h.payload, h.tracks.payload, hdecoded]
    · rintro (hnone | hne | hfree)
      · rw [hfault] at hnone
        cases hnone
      · exact absurd h.fault hne
      · rw [hdecoded, h.payload, h.tracks.payload_of_not_hasByte hfree]
  | blocked ending result stage waits room =>
    rcases hroom with hroom | hroom
    · exact absurd room hroom
    · rw [hroom] at waits
      cases waits
  | complete ending result stage output =>
    have hdecoded : (s.record (s.decoder.finish last)).decoded = Base64.payload o text :=
      output.trans h.payload.symm
    refine ⟨?_, ?_, ⟨[], by decide, ?_⟩, fun _ => hdecoded⟩
    · rw [h.verdict, ending]
      unfold record
      rw [result]
    · rw [h.verdict, ending]
      exact stage
    · rw [hdecoded, List.append_nil]

theorem follow_ends {schedule : List Feeding} {last : Bytes}
    (hend : ((start o).follow text schedule).2 = [] ∨
      ((start o).follow text schedule).1.fault ≠ none)
    (hlast : last ≠ []) :
    Ends o text ((start o).follow text schedule).1
      (((start o).follow text schedule).1.finishInto last) := by
  rcases follow_running schedule (running_start o rfl) with ⟨c, h⟩ | ⟨c, e, h⟩
  · rcases hend with hnil | hfault
    · have hread : Running o text _ [] c := hnil ▸ h
      exact hread.ends (Or.inl hlast)
    · exact absurd h.fault hfault
  · exact h.ends last

/-! ## One call -/

theorem le_maxDecodedLength {n : Nat} (h : n ≤ maxTextLength) :
    6 * n < 8 * (maxDecodedLength n + 1) := by
  unfold maxTextLength maxLength at h
  unfold maxDecodedLength addLength maxLength
  omega

/-- A call that feeds the whole text reads it up to its end, or up to a byte that is refused, and no
byte waits, if there is room for what each part of the text encodes. -/
theorem feedOnce_running_of_room {buffer : Bytes}
    (hroom : ∀ (c' : Content) (done rest : Bytes), text = done ++ rest →
      ({} : Content).scan o done = (c', none) → c'.payload.length ≤ buffer.length) :
    (∃ c, Running o text (feedOnce o buffer text) [] c ∧
        (feedOnce o buffer text).decoder.reservoir.hasByte = false) ∨
      ∃ c e, Refused o text (feedOnce o buffer text) c e := by
  cases convert_fed (tracks_new o) buffer text with
  | taken c' done rest split read tracks result blocked full =>
    have hfree : ((Decoder.new o).convert buffer text).decoder.reservoir.hasByte = false := by
      refine tracks.not_hasByte_of_room full ?_
      rw [List.length_nil, Nat.zero_add]
      exact hroom c' done rest split read
    have hrest : rest = [] := by
      by_contra hne
      rw [blocked hne] at hfree
      cases hfree
    rw [hrest] at split
    exact Or.inl ⟨c', (running_start o split).taken read tracks result, hfree⟩
  | refused c' done rest b e split read error result stage output =>
    exact Or.inr ⟨c', e, (running_start o split).refused read error result stage output⟩

/-- With enough room for any text of that length, a call that feeds the whole text reads it up to
its end, or up to a byte that is refused, and no byte waits. -/
theorem feedOnce_running {buffer : Bytes} (hlen : text.length ≤ maxTextLength)
    (hbuffer : buffer.length = maxDecodedLength text.length) :
    (∃ c, Running o text (feedOnce o buffer text) [] c ∧
        (feedOnce o buffer text).decoder.reservoir.hasByte = false) ∨
      ∃ c e, Refused o text (feedOnce o buffer text) c e := by
  refine feedOnce_running_of_room fun c' done rest split read => ?_
  have hvalues : c'.values.length ≤ 0 + done.length := Content.length_values_scan read
  have hdone := congrArg List.length split
  have hmax := le_maxDecodedLength hlen
  rw [List.length_append] at hdone
  rw [Content.length_payload, hbuffer]
  omega

theorem decodeOnce_ends {buffer : Bytes} (hlen : text.length ≤ maxTextLength)
    (hbuffer : buffer.length = maxDecodedLength text.length) (last : Bytes) :
    Ends o text (feedOnce o buffer text) (decodeOnce o buffer last text) := by
  rcases feedOnce_running hlen hbuffer with ⟨c, h, hfree⟩ | ⟨c, e, h⟩
  · exact h.ends (Or.inr hfree)
  · exact h.ends last

/-- A call that feeds the whole text into enough room leaves nothing to be written. -/
theorem decoded_decodeOnce {buffer : Bytes} (hlen : text.length ≤ maxTextLength)
    (hbuffer : buffer.length = maxDecodedLength text.length) (last : Bytes) :
    (decodeOnce o buffer last text).decoded = payload o text := by
  have hends := decodeOnce_ends (o := o) hlen hbuffer last
  rcases feedOnce_running hlen hbuffer with ⟨c, h, hfree⟩ | ⟨c, e, h⟩
  · exact hends.decoded (Or.inr (Or.inr hfree))
  · refine hends.decoded (Or.inr (Or.inl ?_))
    rw [h.fault]
    exact Option.some_ne_none e

end Calls

/-- **Pieces and buffers of any size.** A schedule that reads the whole text, or stops at an
error, and then ends the text with room for a byte, decodes it as a single call into enough room
does: with the same error or none, the same stage, and the same bytes. Only a text that turns out
not to be complete at its end may leave its last byte unwritten. -/
theorem finishInto_follow_eq_decodeOnce {o : Options} {text : Bytes}
    (hlen : text.length ≤ maxTextLength) {schedule : List Feeding}
    (hend : ((start o).follow text schedule).2 = [] ∨
      ((start o).follow text schedule).1.fault ≠ none)
    {last : Bytes} (hlast : last ≠ []) {buffer : Bytes}
    (hbuffer : buffer.length = maxDecodedLength text.length) (tail : Bytes) :
    let fed := ((start o).follow text schedule).1
    let s := fed.finishInto last
    let once := decodeOnce o buffer tail text
    s.fault = once.fault ∧ s.decoder.stage = once.decoder.stage ∧
      (s.fault = none ∨ fed.fault ≠ none → s.decoded = once.decoded) ∧
      (s.decoded = once.decoded ∨ s.decoded = once.decoded.dropLast) := by
  intro fed s once
  have hs : Ends o text fed s := follow_ends hend hlast
  have honce : Ends o text _ once := decodeOnce_ends hlen hbuffer tail
  have hdecoded : once.decoded = payload o text := decoded_decodeOnce hlen hbuffer tail
  refine ⟨hs.fault.trans honce.fault.symm, hs.stage.trans honce.stage.symm, ?_, ?_⟩
  · intro h
    rw [hdecoded]
    exact hs.decoded (h.imp_right Or.inl)
  · obtain ⟨held, hheld, hpayload⟩ := hs.held
    rw [hdecoded, hpayload]
    rcases held with _ | ⟨b, _ | ⟨b', held⟩⟩
    · exact Or.inl (List.append_nil _).symm
    · exact Or.inr List.dropLast_concat.symm
    · simp only [List.length_cons] at hheld
      omega

/-- Two symbols and then one more without room, where padding is required: the second byte waits
when the text is ended, and stays unwritten. -/
theorem decode_three_symbols_without_room :
    let text : Bytes := [81, 85, 73]
    let fed := ((start {}).follow text [⟨2, [0]⟩, ⟨0, []⟩, ⟨1, []⟩]).1
    let s := fed.finishInto [0]
    let once := decodeOnce {} [0, 0, 0] [] text
    (s.decoded = [65] ∧ once.decoded = [65, 66]) ∧
      s.fault = once.fault ∧ s.decoder.stage = once.decoder.stage ∧
      (s.fault = none ∨ fed.fault ≠ none → s.decoded = once.decoded) ∧
      (s.decoded = once.decoded ∨ s.decoded = once.decoded.dropLast) :=
  ⟨by decide +kernel, finishInto_follow_eq_decodeOnce (by decide) (Or.inl (by decide +kernel))
    (by decide) (by decide) []⟩

end Stream

end TextCodec.Base64
