import TextCodec.Proofs.Base64.Output
import TextCodec.Proofs.Base64.Progress

/-!
# Room for a whole piece of text

A call that feeds text has enough room if its buffer takes the whole bytes of the bits that wait and
of those that the text may bring (`Decoder.RoomFor`). Then it depends on the stages alone how the
call ends, and if it succeeds, then no byte waits after it (`Decoder.convert_of_read`).

A buffer of `maxDecodedLength` bytes is enough where no byte waits, whatever part of a group the
decoder holds (`Decoder.roomFor_of_maxDecodedLength`). So in a session with such buffers no byte
ever waits between two calls (`Decoder.isFree_call`), and no end fails for want of room.
-/

namespace TextCodec.Base64

namespace Decoder

/-- The buffer has room for the whole bytes of the bits that wait and of those of the text, six for
each of its bytes. -/
def RoomFor (d : Decoder) (text buffer : Bytes) : Prop :=
  (d.reservoir.size.toNat + 6 * text.length) / 8 ≤ buffer.length

instance (d : Decoder) (text buffer : Bytes) : Decidable (d.RoomFor text buffer) :=
  inferInstanceAs (Decidable (_ ≤ _))

/-! ## Calls with room -/

section Room

variable {d : Decoder} {buffer text : Bytes}

/-- A call with room takes all of the text, and no byte waits after it. -/
theorem Taken.whole {done rest : Bytes} {r : Outcome Progress}
    (h : Taken ⟨d, .ofBuffer buffer⟩ done rest r) (hsplit : text = done ++ rest)
    (hroom : d.RoomFor text buffer) : done = text ∧ r.decoder.reservoir.hasByte = false := by
  have hfree : r.decoder.reservoir.hasByte = false := by
    rw [← Bool.not_eq_true]
    intro hbyte
    have h8 := Reservoir.hasByte_iff.1 hbyte
    have hfull := h.full hbyte
    have hbalance := h.balance
    have hlength := congrArg List.length hsplit
    unfold RoomFor at hroom
    rw [List.length_append] at hlength
    rw [Sink.buffer_ofBuffer] at hfull
    rw [Sink.count_ofBuffer] at hbalance
    dsimp only at hbalance
    omega
  have hrest : rest = [] := by
    by_contra hne
    rw [h.blocked hne] at hfree
    cases hfree
  rw [hrest, List.append_nil] at hsplit
  exact ⟨hsplit.symm, hfree⟩

section Read

variable (h : d.reservoir.WellFormed) (hrefusal : d.refusal? = none)
  (hroom : d.RoomFor text buffer)

include h hrefusal

include hroom in
/-- With room, a text is fed if its bytes are taken one after another. -/
theorem convert_of_read {s : Stage} (hs : d.stage.read d.options text = .ok s) :
    (∃ n, (d.convert buffer text).result = .ok ⟨text.length, n⟩) ∧
      (d.convert buffer text).decoder.stage = s ∧
      (d.convert buffer text).decoder.reservoir.hasByte = false := by
  cases convert_fedFrom h hrefusal buffer text with
  | taken done rest split result taken =>
    obtain ⟨rfl, hfree⟩ := Taken.whole taken split hroom
    have hread := taken.read
    dsimp only at hread
    rw [hs] at hread
    rw [Nat.zero_add] at result
    exact ⟨⟨_, result⟩, (Except.ok.inj hread).symm, hfree⟩
  | refused done rest b s' e split read error result =>
    rw [split, Stage.read_append read, Stage.read_cons_of_error error] at hs
    cases hs

include hroom in
/-- With room, a text is refused if one of its bytes is. -/
theorem convert_of_read_error {e : Error} (he : d.stage.read d.options text = .error e) :
    (d.convert buffer text).result = .error e := by
  cases convert_fedFrom h hrefusal buffer text with
  | taken done rest split result taken =>
    obtain ⟨rfl, -⟩ := Taken.whole taken split hroom
    have hread := taken.read
    dsimp only at hread
    rw [he] at hread
    cases hread
  | refused done rest b s e' split read error result =>
    rw [split, Stage.read_append read, Stage.read_cons_of_error error] at he
    cases he
    exact result

end Read

/-- Where no byte waits, `maxDecodedLength` bytes are enough. -/
theorem roomFor_of_maxDecodedLength (h : d.reservoir.WellFormed)
    (hfree : d.reservoir.hasByte = false) (hlen : text.length ≤ maxTextLength)
    (hbuffer : maxDecodedLength text.length ≤ buffer.length) : d.RoomFor text buffer := by
  have hlt := Reservoir.size_lt_of_not_hasByte hfree
  have heven := h.size_even
  unfold maxTextLength maxLength at hlen
  unfold maxDecodedLength addLength maxLength at hbuffer
  unfold RoomFor
  omega

end Room

/-! ## Sessions with room -/

/-- The decoder takes no calls, or no byte waits. -/
def IsFree (d : Decoder) : Prop := d.refusal? ≠ none ∨ d.reservoir.hasByte = false

end Decoder

/-- The call has room for whatever its text decodes to. -/
def Call.IsRoomy : Call → Prop
  | .convert buffer text =>
    text.length ≤ maxTextLength ∧ maxDecodedLength text.length ≤ buffer.length
  | .finish _ | .reset => True

instance : DecidablePred Call.IsRoomy
  | .convert _ _ => inferInstanceAs (Decidable (_ ∧ _))
  | .finish _ | .reset => inferInstanceAs (Decidable True)

namespace Decoder

section Sessions

variable {d : Decoder}

theorem finish_ne_of_isFree (h : d.reservoir.WellFormed) (hfree : d.IsFree) (buffer : Bytes) :
    (d.finish buffer).result ≠ .error .insufficientOutput := by
  intro hr
  obtain ⟨hnone, hbyte, -⟩ := blocked_finish h hr
  rcases hfree with hrefused | hfree
  · exact hrefused hnone
  · rw [hbyte] at hfree
    cases hfree

/-- A call that fails for another reason than room leaves a decoder that takes no calls. -/
theorem isFree_of_error {c : Call} {e : Error} (h : d.reservoir.WellFormed) (hc : c ≠ .reset)
    (he : (d.call c).result = .error e) (hne : e ≠ .insufficientOutput) :
    (d.call c).decoder.IsFree := by
  refine .inl (refusal?_ne_none_iff.2 (.inl ?_))
  by_cases hs : d.stage = .failed
  · exact congrArg View.stage (view_call_of_refusal? (refusal?_of_failed hs) hc)
  · exact ((call_endsAs h hs c).failed_of_result he hne).2

theorem isFree_convert (h : d.reservoir.WellFormed) (hfree : d.IsFree) {buffer text : Bytes}
    (hlen : text.length ≤ maxTextLength)
    (hbuffer : maxDecodedLength text.length ≤ buffer.length) :
    (d.call (.convert buffer text)).decoder.IsFree := by
  cases hr : (d.convert buffer text).result with
  | ok p =>
    have hnone := refusal?_of_convert hr
    have hroom := roomFor_of_maxDecodedLength h (hfree.resolve_left (not_not.2 hnone)) hlen hbuffer
    obtain ⟨done, rest, split, -, taken⟩ := exists_taken h hr
    exact .inr (Taken.whole taken split hroom).2
  | error e =>
    refine isFree_of_error h nofun (call_convert_eq_error_iff.2 hr) ?_
    rintro rfl
    exact convert_ne_insufficientOutput h buffer text hr

theorem isFree_finish (h : d.reservoir.WellFormed) (hfree : d.IsFree) (buffer : Bytes) :
    (d.call (.finish buffer)).decoder.IsFree := by
  cases hr : (d.finish buffer).result with
  | ok n => exact .inl (Option.ne_none_iff_exists'.2 ⟨_, (finished_of_finish hr).2⟩)
  | error e =>
    refine isFree_of_error h nofun (call_finish_eq_error_iff.2 hr) ?_
    rintro rfl
    exact finish_ne_of_isFree h hfree buffer hr

/-- With room, no byte waits after a call if none waited before. -/
theorem isFree_call (h : d.reservoir.WellFormed) (hfree : d.IsFree) {c : Call} (hc : c.IsRoomy) :
    (d.call c).decoder.IsFree := by
  cases c with
  | convert buffer text => exact isFree_convert h hfree hc.1 hc.2
  | finish buffer => exact isFree_finish h hfree buffer
  | reset => exact .inr rfl

/-- With room, no end fails for want of it, and so text may be fed after every call. -/
theorem orderly_of_isRoomy {calls : List Call} (h : d.reservoir.WellFormed) (hfree : d.IsFree)
    (hcalls : ∀ c ∈ calls, c.IsRoomy) : d.Orderly calls := by
  induction calls generalizing d with
  | nil => trivial
  | cons c calls ih =>
    rw [List.forall_mem_cons] at hcalls
    refine ⟨fun hr => ?_, ?_⟩
    · obtain rfl := eq_finish_of_noRoom h hr
      exact absurd (call_finish_eq_error_iff.1 hr) (finish_ne_of_isFree h hfree [])
    · exact ih (invariant_wellFormed.call h c) (isFree_call h hfree hcalls.1) hcalls.2

end Sessions

end Decoder

/-- The number of symbols of a text, up to the first byte that is refused. -/
def symbolCount (o : Options) (text : Bytes) : Nat := (({} : Content).scan o text).1.values.length

theorem length_payload (o : Options) (text : Bytes) :
    (payload o text).length = 6 * symbolCount o text / 8 :=
  Content.length_payload _

/-- **Room for any piece.** Whatever was called before, if no byte waits, then `maxDecodedLength`
bytes are enough: a call that succeeds takes the whole piece, again no byte waits, and the end needs
no room. A new decoder with such calls writes at most the whole bytes of the symbols that it
reads. -/
theorem room_for_pieces (o : Options) :
    (∀ past buffer text,
      let d := (Decoder.new o).after past
      d.reservoir.size.toNat < 8 → text.length ≤ maxTextLength →
        maxDecodedLength text.length ≤ buffer.length →
        ∀ p, (d.convert buffer text).result = .ok p →
          let fed := (d.convert buffer text).decoder
          p.consumed = text.length ∧ fed.reservoir.size.toNat < 8 ∧
            ∀ last, (fed.finish last).result ≠ .error .insufficientOutput) ∧
      ∀ calls, (∀ c ∈ calls, c.IsRoomy) →
        let t := (Transcript.start o).after calls
        t.decoded.length ≤ 6 * symbolCount o t.text / 8 := by
  refine ⟨fun past buffer text => ?_, fun calls hcalls => ?_⟩
  · intro d hlt hlen hbuffer p hp fed
    have h : d.reservoir.WellFormed := Decoder.wellFormed_after_new o past
    have hfree : d.reservoir.hasByte = false := by
      rw [← Bool.not_eq_true, Reservoir.hasByte_iff, Nat.not_le]
      exact hlt
    have hroom := Decoder.roomFor_of_maxDecodedLength h hfree hlen hbuffer
    obtain ⟨done, rest, split, rfl, taken⟩ := Decoder.exists_taken h hp
    obtain ⟨rfl, hfed⟩ := Decoder.Taken.whole taken split hroom
    exact ⟨rfl, Reservoir.size_lt_of_not_hasByte hfed,
      Decoder.finish_ne_of_isFree taken.wellFormed (.inr hfed)⟩
  · intro t
    have horderly : (Decoder.new o).Orderly calls :=
      Decoder.orderly_of_isRoomy Reservoir.wellFormed_empty (.inr rfl) hcalls
    obtain ⟨held, -, hpayload⟩ := horderly.exists_held
    rw [← length_payload, hpayload, List.length_append]
    exact Nat.le_add_right _ _

/-- Four bits are held back, and two symbols more complete two bytes. -/
theorem room_for_pieces_of_two_symbols :
    let o : Options := {}
    let past : List Call := [.convert [0x23, 0x23, 0x23] [81, 85]]
    let d := (Decoder.new o).after past
    let buffer : Bytes := [0x23, 0x23, 0x23]
    let text : Bytes := [74, 68]
    let fed := (d.convert buffer text).decoder
    let p : Progress := ⟨2, 2⟩
    let calls := past ++ [.convert buffer text, .finish []]
    (d.reservoir.size.toNat < 8 ∧ text.length ≤ maxTextLength ∧
        maxDecodedLength text.length ≤ buffer.length ∧
        (d.convert buffer text).result = .ok p ∧ ∀ c ∈ calls, c.IsRoomy) ∧
      (p.consumed = text.length ∧ fed.reservoir.size.toNat < 8 ∧
        ∀ last, (fed.finish last).result ≠ .error .insufficientOutput) ∧
      ((Transcript.start o).after calls).decoded.length ≤
        6 * symbolCount o ((Transcript.start o).after calls).text / 8 := by
  intro o past d buffer text fed p calls
  have hlt : d.reservoir.size.toNat < 8 := by decide +kernel
  have hlen : text.length ≤ maxTextLength := by decide
  have hbuffer : maxDecodedLength text.length ≤ buffer.length := by decide
  have hp : (d.convert buffer text).result = .ok p := by decide +kernel
  have hcalls : ∀ c ∈ calls, c.IsRoomy := by decide
  obtain ⟨hpiece, hsession⟩ := room_for_pieces o
  refine ⟨⟨hlt, hlen, hbuffer, hp, hcalls⟩, ?_, hsession calls hcalls⟩
  -- with the decoders written out on both sides, none of them is evaluated
  subst d fed
  exact hpiece past buffer text hlt hlen hbuffer p hp

end TextCodec.Base64
