import TextCodec.Proofs.Base64.Canonical
import TextCodec.Proofs.Base64.Failures
import TextCodec.Proofs.Base64.Lockstep

/-!
# Strict and relaxed decoders

Relaxed options skip every byte that is neither a symbol nor `=`, and let a text end in a short
group. They read whatever strict ones read: blanks are such bytes (`Alphabet.isForeign_of_isBlank`),
and only strict options ever require padding. So relaxed options follow strict ones
(`Options.follows_relaxed`), and a relaxed decoder answers each call as a strict one does until the
strict one fails (`views_relaxed`).
-/

namespace TextCodec.Base64

namespace Options

/-- The same options with foreign bytes refused. -/
def strict (o : Options) : Options := { o with isStrict := true }

/-- The same options with foreign bytes skipped. -/
def relaxed (o : Options) : Options := { o with isStrict := false }

end Options

theorem Alphabet.isForeign_of_isBlank (a : Alphabet) {b : UInt8} (h : isBlank b = true) :
    a.isForeign b = true := by
  rw [isForeign_iff, ← value?_eq_none_iff]
  refine ⟨a.value?_of_isBlank h, ?_⟩
  rintro rfl
  exact absurd h (by decide)

/-- Relaxed options read what strict ones read. -/
theorem Options.follows_relaxed (o : Options) : Follows False id o.strict o.relaxed where
  value? _ := rfl
  pad_iff := Iff.rfl
  isPadded := rfl
  skips h := by
    have hskips := h.resolve_left id
    rw [hskips]
    exact o.alphabet.isForeign_of_isBlank hskips
  requiresPadding h := by
    rw [h.resolve_left id]
    exact Bool.and_false _

namespace Decoder

variable {d : Decoder} {calls : List Call}

/-- The calls before a given one do not depend on those after it. -/
theorem views_take (d : Decoder) (calls : List Call) (n : Nat) :
    d.views (calls.take n) = (d.views calls).take n := by
  induction calls generalizing d n with
  | nil => simp [views, session]
  | cons c calls ih =>
    cases n with
    | zero => rfl
    | succ n => rw [List.take_succ_cons, views_cons, views_cons, ih, List.take_succ_cons]

/-- A decoder that has not failed has not failed after calls that did not. -/
theorem stage_ne_failed_of_views (hd : d.reservoir.WellFormed) (hne : d.stage ≠ .failed)
    (h : ∀ v ∈ d.views calls, ¬v.Failed) : ∀ v ∈ d.views calls, v.stage ≠ .failed := by
  induction calls generalizing d with
  | nil => nofun
  | cons c calls ih =>
    rw [views_cons, List.forall_mem_cons] at h ⊢
    have hstage : (d.call c).decoder.stage ≠ .failed :=
      mt (call_endsAs hd hne c).failed_iff.2 h.1
    exact ⟨hstage, ih (invariant_wellFormed.call hd c) hstage h.2⟩

end Decoder

/-- A relaxed decoder answers as a strict one does, as long as that has not failed. -/
theorem views_relaxed (o : Options) {calls : List Call}
    (h : ∀ v ∈ (Decoder.new o.strict).views calls, ¬v.Failed) :
    (Decoder.new o.relaxed).views calls = (Decoder.new o.strict).views calls := by
  have hstages := Decoder.stage_ne_failed_of_views (d := .new o.strict)
    Reservoir.wellFormed_empty nofun h
  have hviews := o.follows_relaxed.views_eq (d := .new o.strict) rfl calls (Or.inr hstages)
  rw [Call.translate_id, View.translate_id, List.map_id, List.map_id] at hviews
  exact hviews

/-- What is accepted strictly is accepted, and decoded to the same bytes. -/
theorem Accepts.relaxed {o : Options} {text bytes : Bytes} (h : Accepts o.strict text bytes) :
    Accepts o.relaxed text bytes := by
  obtain ⟨buffer, last, ⟨n, hfed⟩, ⟨m, hended⟩, hbytes⟩ := h
  let fed := (Decoder.new o.strict).convert buffer text
  let ended := fed.decoder.finish last
  have hoptions : fed.decoder.options = o.strict :=
    Decoder.options_call (.new o.strict) (.convert buffer text)
  obtain ⟨hne, hrefusal⟩ := Decoder.finished_of_finish hended
  have hne' : ended.decoder.stage ≠ .failed := fun hs => by
    rw [Decoder.refusal?_of_failed hs] at hrefusal
    cases hrefusal
  have hconvert : (Decoder.new o.relaxed).convert buffer text = fed.translate o.relaxed id := by
    have hfollows := o.follows_relaxed.convert (d := .new o.strict) rfl buffer text (Or.inr hne)
    rw [List.map_id] at hfollows
    exact hfollows
  have hfinish : (fed.translate o.relaxed id).decoder.finish last = ended.translate o.relaxed id :=
    o.follows_relaxed.finish hoptions last (Or.inr hne')
  refine ⟨buffer, last, ?_⟩
  dsimp only
  rw [hconvert, hfinish]
  exact ⟨⟨n, congrArg (Except.mapError _) hfed⟩, ⟨m, congrArg (Except.mapError _) hended⟩, hbytes⟩

/-- **Relaxed decoders extend strict ones.** As long as no call on a new strict decoder fails for
another reason than want of room, the same calls look the same on a new relaxed decoder with the
same alphabet and padding. So every text that is accepted strictly is accepted, and decoded to the
same bytes. -/
theorem relaxed_extends_strict (o : Options) :
    (∀ (calls : List Call) (n : Nat),
        (∀ v ∈ ((Decoder.new o.strict).views calls).take n, ¬v.Failed) →
          ((Decoder.new o.relaxed).views calls).take n =
            ((Decoder.new o.strict).views calls).take n) ∧
      ∀ text bytes, Accepts o.strict text bytes → Accepts o.relaxed text bytes := by
  refine ⟨fun calls n h => ?_, fun text bytes h => h.relaxed⟩
  rw [← Decoder.views_take] at h ⊢
  rw [← Decoder.views_take]
  exact views_relaxed o h

/-- An unpadded text whose end finds no room at first. The last call feeds a byte that only the
relaxed decoder skips. -/
theorem relaxed_extends_strict_until_foreign :
    let o : Options := { isPadded := false }
    let calls : List Call := [.convert [] [0x2F, 0x20, 0x77], .finish [], .convert [0x23] [0x2A]]
    ((∀ v ∈ ((Decoder.new o.strict).views calls).take 2, ¬v.Failed) ∧
      Accepts o.strict [0x2F, 0x20, 0x77] [0xFF]) ∧
      ((Decoder.new o.relaxed).views calls).take 2 = ((Decoder.new o.strict).views calls).take 2 ∧
      Accepts o.relaxed [0x2F, 0x20, 0x77] [0xFF] ∧
      (Decoder.new o.relaxed).views calls ≠ (Decoder.new o.strict).views calls := by
  intro o calls
  have hviews : ((Decoder.new o.strict).views calls).take 2 =
      [⟨.ok (.converted ⟨3, 0⟩), [], .symbols 2, 0⟩,
        ⟨.error .insufficientOutput, [], .symbols 2, 0⟩] := by
    decide +kernel
  have hnone : ∀ v ∈ ((Decoder.new o.strict).views calls).take 2, ¬v.Failed := by
    rw [hviews]
    simp [View.Failed]
  have haccepts : Accepts o.strict [0x2F, 0x20, 0x77] [0xFF] :=
    ⟨[0x23], [], ⟨1, by decide +kernel⟩, ⟨0, by decide +kernel⟩, by decide +kernel⟩
  obtain ⟨hsame, haccepted⟩ := relaxed_extends_strict o
  exact ⟨⟨hnone, haccepts⟩, hsame calls 2 hnone, haccepted _ _ haccepts, by decide +kernel⟩

end TextCodec.Base64
