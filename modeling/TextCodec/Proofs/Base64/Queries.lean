import TextCodec.Proofs.Base64.Language
import TextCodec.Proofs.Base64.Overflow
import TextCodec.Proofs.Base64.Room

/-!
# What the queries of a decoder tell

The queries look at the stage of a decoder and at its options, and the calls decide on their own.
Here the two are compared: `isAccepting` tells whether the text may end, `isMaximal` whether nothing
but ignored bytes may follow, and as long as neither `isMaximal` nor `isFailed` holds, there is a
text that completes what has come.

With enough room it does not depend on the bits that wait how a call ends
(`Decoder.convert_of_read`), so what may follow is settled by reading texts stage by stage: after
padding no symbol is taken (`Stage.exists_read_padded_eq_error`), and every open stage has a text
that brings its group to an end (`Stage.completion`).
-/

namespace TextCodec.Base64

theorem Alphabet.symbol_mem_symbols (a : Alphabet) {v : Nat} (hv : v < 64) :
    a.symbol v ∈ a.symbols := by
  by_contra hmem
  rw [← value?_eq_none_iff, a.value?_symbol hv] at hmem
  cases hmem

/-! ## Stages -/

namespace Stage

/-- The last group is complete or has not begun, so the text may end whatever the options are. -/
def IsComplete (s : Stage) : Prop := s = .initial ∨ s = .symbols 0 ∨ s = .padded

/-- A text that completes the last group: the symbols that it lacks, or else the padding. -/
def completion (a : Alphabet) : Stage → Bytes
  | symbols n => List.replicate ((4 - n) % 4) (a.symbol 0)
  | halfPadded => [pad]
  | failed | initial | padded | finished => []

section Take

variable {o : Options} {s s' : Stage}

/-- A symbol is taken by a group that is open. -/
theorem take_symbol {n : Nat} (hs : s.count? = some n) {v : Nat} (hv : v < 64) :
    s.take o (o.alphabet.symbol v) = .ok (.symbols ((n + 1) % 4)) := by
  unfold take Decoder.take Decoder.takeSymbol
  rw [o.alphabet.value?_symbol hv, hs]
  rfl

theorem take_pad_halfPadded (ho : o.isPadded = true) : halfPadded.take o pad = .ok .padded := by
  unfold take Decoder.take
  rw [o.alphabet.value?_pad]
  dsimp only
  rw [if_pos ⟨rfl, ho⟩]
  rfl

/-- After padding only bytes are taken that are skipped. -/
theorem take_padded {b : UInt8} (h : padded.take o b = .ok s) :
    b ∉ o.alphabet.symbols ∧ s = .padded := by
  rw [← Alphabet.value?_eq_none_iff]
  unfold take Decoder.take at h
  cases hb : o.alphabet.value? b with
  | some v =>
    rw [hb] at h
    cases h
  | none =>
    rw [hb] at h
    dsimp only at h
    split_ifs at h
    · cases h
    · cases h
      exact ⟨rfl, rfl⟩
    · cases h
    · cases h

end Take

section Read

variable (o : Options)

theorem exists_read_padded_eq_error {text : Bytes}
    (htext : ∃ b ∈ text, b ∈ o.alphabet.symbols) : ∃ e, padded.read o text = .error e := by
  induction text with
  | nil =>
    obtain ⟨b, hb, -⟩ := htext
    cases hb
  | cons b text ih =>
    cases hb : padded.take o b with
    | error e => exact ⟨e, read_cons_of_error hb text⟩
    | ok s =>
      -- a byte in front of the symbol is skipped, and the stage stays
      obtain ⟨hskipped, rfl⟩ := take_padded hb
      rw [read_cons_of_ok hb]
      obtain ⟨b', hmem, hsymbol⟩ := htext
      rcases List.mem_cons.1 hmem with rfl | hmem
      · exact absurd hsymbol hskipped
      · exact ih ⟨b', hmem, hsymbol⟩

/-- Symbols go round the stages of a group. -/
theorem read_replicate_symbol (n k : Nat) {v : Nat} (hv : v < 64) :
    (symbols (n % 4)).read o (List.replicate k (o.alphabet.symbol v)) =
      .ok (.symbols ((n + k) % 4)) := by
  induction k generalizing n with
  | zero => rfl
  | succ k ih =>
    have hone : (symbols (n % 4)).take o (o.alphabet.symbol v) = .ok (.symbols ((n + 1) % 4)) := by
      rw [take_symbol rfl hv, Nat.mod_add_mod]
    rw [List.replicate_succ, read_cons_of_ok hone, ih, Nat.add_right_comm, Nat.add_assoc]

/-- Every open stage reads its completion. -/
theorem exists_read_completion {s : Stage} (hgroup : s.InGroup)
    (hpad : s = .halfPadded → o.isPadded) (hfailed : s ≠ .failed) (hfinished : s ≠ .finished) :
    ∃ s', s.read o (s.completion o.alphabet) = .ok s' ∧ s'.IsComplete := by
  cases s with
  | failed => exact absurd rfl hfailed
  | finished => exact absurd rfl hfinished
  | initial => exact ⟨.initial, rfl, .inl rfl⟩
  | padded => exact ⟨.padded, rfl, .inr (.inr rfl)⟩
  | halfPadded =>
    exact ⟨.padded, read_cons_of_ok (take_pad_halfPadded (hpad rfl)) [], .inr (.inr rfl)⟩
  | symbols n =>
    have hn : n ≤ 3 := hgroup
    have hread := read_replicate_symbol o n ((4 - n) % 4) (v := 0) (by decide)
    rw [Nat.mod_eq_of_lt (by omega), show (n + (4 - n) % 4) % 4 = 0 by omega] at hread
    exact ⟨.symbols 0, hread, .inr (.inl rfl)⟩

end Read

end Stage

namespace Decoder

/-! ## Ends -/

section Ends

variable {d : Decoder}

/-- With room for a byte, it depends on the stage and the options alone whether a text may end. -/
theorem exists_finish_iff (h : d.reservoir.WellFormed) {buffer : Bytes} (hbuffer : buffer ≠ []) :
    (∃ n, (d.finish buffer).result = .ok n) ↔ d.refusal? = none ∧ d.ending? = none := by
  unfold finish
  cases d.refusal? with
  | some e => exact ⟨nofun, nofun⟩
  | none =>
    cases d.ending? with
    | some e => exact ⟨nofun, nofun⟩
    | none =>
      have hfree : (Transfer.flush ⟨d.settle, .ofBuffer buffer⟩).isBlocked = false :=
        Reservoir.not_hasByte_drain (wellFormed_settle h) #[] hbuffer
      dsimp only
      rw [hfree]
      exact ⟨fun _ => ⟨rfl, rfl⟩, fun _ => ⟨_, rfl⟩⟩

theorem isAccepting_iff (h : d.stage.InGroup) (hfinished : d.isFinished = false) :
    d.isAccepting = true ↔ d.refusal? = none ∧ d.ending? = none := by
  unfold isAccepting refusal? ending?
  cases hs : d.stage with
  | failed => simp
  | initial => simp
  | halfPadded => simp
  | padded => simp
  | finished =>
    unfold isFinished at hfinished
    rw [hs] at hfinished
    cases hfinished
  | symbols n =>
    -- a group of more symbols could be ended and is not accepted, but no decoder comes to one
    rw [hs] at h
    have hn : n ≤ 3 := h
    have hcases : n = 0 ∨ n = 1 ∨ n = 2 ∨ n = 3 := by omega
    rcases hcases with rfl | rfl | rfl | rfl <;> simp

theorem ends_of_isComplete (h : d.stage.IsComplete) : d.refusal? = none ∧ d.ending? = none := by
  unfold refusal? ending?
  rcases h with hs | hs | hs <;> rw [hs] <;> exact ⟨rfl, rfl⟩

end Ends

/-! ## Texts that may follow -/

/-- With enough room, the text is refused. -/
def Refuses (d : Decoder) (text : Bytes) : Prop :=
  ∀ buffer, d.RoomFor text buffer → ∃ e, (d.convert buffer text).result = .error e

/-- With enough room, all of the text is taken, and then it may end. -/
def CompletedBy (d : Decoder) (text : Bytes) : Prop :=
  ∀ buffer, d.RoomFor text buffer →
    (∃ n, (d.convert buffer text).result = .ok ⟨text.length, n⟩) ∧
      ∀ last, last ≠ [] → ∃ m, ((d.convert buffer text).decoder.finish last).result = .ok m

/-- A group is only half padded where padding is read. -/
theorem invariant_halfPadded :
    Invariant fun d => d.stage = .halfPadded → d.options.isPadded = true where
  reset _ := nofun
  take h _ ht hs := by
    rw [options_take ht]
    unfold take takeSymbol at ht
    split at ht
    · split at ht <;> cases ht
      cases hs
    · split_ifs at ht with hpad
      · exact hpad.2
      · cases ht
        exact h hs
  settle {d} h hs := by
    rw [options_settle]
    exact h (stage_settle d ▸ hs)
  flush h := h
  close _ h hstage hs := by
    rcases hstage with rfl | rfl | rfl
    · exact h hs
    · cases hs
    · cases hs

section Maximal

variable {d : Decoder}

theorem isMaximal_iff : d.isMaximal = true ↔ d.stage = .finished ∨ d.stage = .padded := by
  unfold isMaximal
  rw [Bool.or_eq_true, decide_eq_true_eq, decide_eq_true_eq]

theorem isAccepting_of_isMaximal (h : d.isMaximal = true) : d.isAccepting = true := by
  unfold isAccepting
  rcases isMaximal_iff.1 h with hs | hs <;> rw [hs]

/-- A text that may end may go on with a symbol, unless it has been padded. -/
theorem exists_count?_of_isAccepting (h : d.isAccepting = true) (hmaximal : d.isMaximal ≠ true) :
    ∃ n, d.stage.count? = some n := by
  unfold isAccepting at h
  rw [Ne, isMaximal_iff] at hmaximal
  cases hs : d.stage with
  | initial => exact ⟨0, rfl⟩
  | symbols n => exact ⟨n, rfl⟩
  | failed =>
    rw [hs] at h
    cases h
  | halfPadded =>
    rw [hs] at h
    cases h
  | padded => exact absurd (.inr hs) hmaximal
  | finished => exact absurd (.inl hs) hmaximal

end Maximal

section Follow

variable {d : Decoder} (h : d.reservoir.WellFormed)

include h

theorem completedBy_of_read (hrefusal : d.refusal? = none) {text : Bytes} {s : Stage}
    (hs : d.stage.read d.options text = .ok s) (hcomplete : s.IsComplete) : d.CompletedBy text := by
  intro buffer hroom
  obtain ⟨hfed, rfl, -⟩ := convert_of_read h hrefusal hroom hs
  have hnext := wellFormed_convert h buffer text
  exact ⟨hfed, fun last hlast => (exists_finish_iff hnext hlast).2 (ends_of_isComplete hcomplete)⟩

/-- If nothing but ignored bytes may follow, then a text with a symbol is refused. -/
theorem refuses_of_isMaximal (hmaximal : d.isMaximal = true) {text : Bytes}
    (htext : ∃ b ∈ text, b ∈ d.options.alphabet.symbols) : d.Refuses text := by
  intro buffer hroom
  cases hrefusal : d.refusal? with
  | some e =>
    unfold convert
    rw [hrefusal]
    exact ⟨e, rfl⟩
  | none =>
    have hs : d.stage = .padded := (isMaximal_iff.1 hmaximal).resolve_left fun hs =>
      refusal?_ne_none_iff.2 (.inr hs) hrefusal
    obtain ⟨e, he⟩ := Stage.exists_read_padded_eq_error d.options htext
    rw [← hs] at he
    exact ⟨e, convert_of_read_error h hrefusal hroom he⟩

/-- If a group is open, then a symbol alone is taken. -/
theorem not_refuses_symbol {n : Nat} (hn : d.stage.count? = some n) {v : Nat} (hv : v < 64) :
    ¬d.Refuses [d.options.alphabet.symbol v] := by
  intro hrefuses
  have hrefusal : d.refusal? = none := by
    by_contra hne
    rcases refusal?_ne_none_iff.1 hne with hs | hs <;> rw [hs] at hn <;> cases hn
  let buffer : Bytes := List.replicate ((d.reservoir.size.toNat + 6 * 1) / 8) 0
  have hroom : d.RoomFor [d.options.alphabet.symbol v] buffer :=
    Nat.le_of_eq (List.length_replicate).symm
  have hread := Stage.read_cons_of_ok (Stage.take_symbol (o := d.options) hn hv) []
  obtain ⟨⟨m, hm⟩, -⟩ := convert_of_read h hrefusal hroom hread
  obtain ⟨e, he⟩ := hrefuses buffer hroom
  rw [hm] at he
  cases he

/-- A decoder is maximal if and only if its text may end and goes on with no symbol. -/
theorem isMaximal_iff_refuses : d.isMaximal = true ↔ d.isAccepting = true ∧
    ∀ text, (∃ b ∈ text, b ∈ d.options.alphabet.symbols) → d.Refuses text := by
  constructor
  · intro hmaximal
    exact ⟨isAccepting_of_isMaximal hmaximal, fun _ => refuses_of_isMaximal h hmaximal⟩
  · rintro ⟨haccepting, hrefuses⟩
    by_contra hmaximal
    obtain ⟨n, hn⟩ := exists_count?_of_isAccepting haccepting hmaximal
    have hmem := d.options.alphabet.symbol_mem_symbols (v := 0) (by decide)
    exact not_refuses_symbol h hn (by decide) (hrefuses _ ⟨_, List.mem_singleton_self _, hmem⟩)

end Follow

/-- The text of a decoder that is neither maximal nor failed can be completed. -/
theorem completedBy_completion {d : Decoder} (h : d.Sound)
    (hpad : d.stage = .halfPadded → d.options.isPadded = true) (hmaximal : d.isMaximal = false)
    (hfailed : d.isFailed = false) : d.CompletedBy (d.stage.completion d.options.alphabet) := by
  have hopen : d.stage ≠ .failed := of_decide_eq_false hfailed
  have hunfinished : d.stage ≠ .finished := fun hs => by
    rw [isMaximal_iff.2 (.inl hs)] at hmaximal
    cases hmaximal
  have hrefusal : d.refusal? = none := by
    by_contra hne
    exact (refusal?_ne_none_iff.1 hne).elim hopen hunfinished
  obtain ⟨s, hread, hcomplete⟩ :=
    Stage.exists_read_completion d.options h.inGroup hpad hopen hunfinished
  exact completedBy_of_read h.wellFormed hrefusal hread hcomplete

end Decoder

/-- **Queries.** Whatever was called before, `isAccepting` tells whether the text may end, with room
for a byte. `isMaximal` tells that it may end, and that every text with a symbol is refused behind
it. If neither `isMaximal` nor `isFailed` holds, then the completion of the stage is taken, and
after it the text may end. -/
theorem queries_after (o : Options) (past : List Call) :
    let d := (Decoder.new o).after past
    (d.isFinished = false → ∀ buffer, buffer ≠ [] →
        ((∃ n, (d.finish buffer).result = .ok n) ↔ d.isAccepting = true)) ∧
      (d.isMaximal = true ↔ d.isAccepting = true ∧
        ∀ text, (∃ b ∈ text, b ∈ o.alphabet.symbols) → d.Refuses text) ∧
      (d.isMaximal = false → d.isFailed = false →
        d.CompletedBy (d.stage.completion o.alphabet)) := by
  intro d
  have hsound : d.Sound := Decoder.invariant_sound.after (Decoder.sound_new o) past
  have hpad : d.stage = .halfPadded → d.options.isPadded = true :=
    Decoder.invariant_halfPadded.after (d := .new o) nofun past
  have hoptions : d.options = o := (Decoder.new o).options_after past
  rw [← hoptions]
  refine ⟨fun hfinished buffer hbuffer => ?_, Decoder.isMaximal_iff_refuses hsound.wellFormed,
    Decoder.completedBy_completion hsound hpad⟩
  rw [Decoder.exists_finish_iff hsound.wellFormed hbuffer,
    Decoder.isAccepting_iff hsound.inGroup hfinished]

/-- A group is half padded, and then it is padded. -/
theorem queries_after_half_padding :
    let o : Options := {}
    let past : List Call := [.convert [0x23] [0x51, 0x51, 0x3D]]
    let d := (Decoder.new o).after past
    let e := (Decoder.new o).after (past ++ [.convert [] [0x3D]])
    (d.isFinished = false ∧ d.isMaximal = false ∧ d.isFailed = false) ∧
      ((∃ n, (d.finish [0x23]).result = .ok n) ↔ d.isAccepting = true) ∧
      d.stage.completion o.alphabet = [0x3D] ∧ d.CompletedBy (d.stage.completion o.alphabet) ∧
      e.isMaximal = true ∧ e.Refuses [0x20, 0x51] := by
  intro o past d e
  have hfinished : d.isFinished = false := by decide +kernel
  have hmaximal : d.isMaximal = false := by decide +kernel
  have hfailed : d.isFailed = false := by decide +kernel
  have hmaximal' : e.isMaximal = true := by decide +kernel
  have hsymbol : ∃ b ∈ ([0x20, 0x51] : Bytes), b ∈ o.alphabet.symbols := by decide
  obtain ⟨hends, -, hcompleted⟩ := queries_after o past
  obtain ⟨-, hrefuses, -⟩ := queries_after o (past ++ [.convert [] [0x3D]])
  exact ⟨⟨hfinished, hmaximal, hfailed⟩, hends hfinished [0x23] (List.cons_ne_nil _ _),
    by decide +kernel, hcompleted hmaximal hfailed, hmaximal', (hrefuses.1 hmaximal').2 _ hsymbol⟩

end TextCodec.Base64
