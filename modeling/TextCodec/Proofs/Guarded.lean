import TextCodec.Proofs.Success

/-!
# Guarded computations

A guard ends a computation in `none` where something must not happen, such as a cast that changes
its number. That is not a refusal, which is an answer like any other.

`Computes` says that the guards of a computation hold, that they change nothing, and what is true of
a value that is found. It is kept by `>>=` (`Computes.bind`), so what is true of a computation
follows from its steps.
-/

namespace TextCodec

/-- A computation with guards, and with refusals of type `ε`. -/
abbrev Guarded (ε α : Type) := ExceptT ε Option α

/-- All guards hold, the result is the one without guards, and a value that is found has the
property. -/
structure Computes {ε α : Type} (guarded : Guarded ε α) (result : Except ε α) (P : α → Prop) :
    Prop where
  run_eq : guarded.run = some result
  found : ∀ a, result = .ok a → P a

namespace Computes

variable {ε ε' α β : Type} {P : α → Prop} {Q : β → Prop} {x? : Guarded ε α} {x : Except ε α}
  {f? : α → Guarded ε β} {f : α → Except ε β}

theorem pure {a : α} (h : P a) : Computes (pure a : Guarded ε α) (.ok a) P := by
  refine ⟨rfl, ?_⟩
  rintro _ ⟨⟩
  exact h

theorem throw (e : ε) : Computes (throw e : Guarded ε α) (.error e) P := by
  refine ⟨rfl, ?_⟩
  rintro _ ⟨⟩

/-- A computation that has no guards. -/
theorem lift (h : ∀ a, x = .ok a → P a) : Computes (liftM x : Guarded ε α) x P := ⟨rfl, h⟩

/-- A computation that has no guards, and of which nothing has to be known. -/
theorem step (x : Except ε α) : Computes (liftM x : Guarded ε α) x fun _ => True :=
  lift fun _ _ => trivial

theorem bind (hx : Computes x? x P) (hf : ∀ a, P a → Computes (f? a) (f a) Q) :
    Computes (x? >>= f?) (x >>= f) Q := by
  have hrun : (x? >>= f?).run = x?.run >>= ExceptT.bindCont f? := rfl
  cases hcase : x with
  | error e =>
    refine ⟨?_, ?_⟩
    · rw [hrun, hx.run_eq, hcase]
      rfl
    · rintro _ ⟨⟩
  | ok a =>
    have ha := hf a (hx.found a hcase)
    refine ⟨?_, ha.found⟩
    rw [hrun, hx.run_eq, hcase]
    exact ha.run_eq

/-- A guard that holds. -/
theorem lift_some {o : Option α} {a : α} (h : o = some a) (ha : P a) :
    Computes (liftM o : Guarded ε α) (.ok a) P := by
  rw [h]
  exact .pure ha

/-- A guard that holds, before other steps. -/
theorem bind_some {o : Option α} {a : α} {y : Except ε β} (h : o = some a)
    (hf : Computes (f? a) y Q) : Computes ((liftM o : Guarded ε α) >>= f?) y Q := by
  rw [h]
  exact hf

/-- Refusals may be told in other words. -/
theorem adapt (hx : Computes x? x P) (g : ε → ε') : Computes (x?.adapt g) (x.mapError g) P := by
  refine ⟨?_, fun a ha => hx.found a (mapError_eq_ok_iff.1 ha)⟩
  show x?.run.map (Except.mapError g) = _
  rw [hx.run_eq]
  rfl

theorem ite {c : Prop} [Decidable c] {y? : Guarded ε α} {y : Except ε α}
    (hx : c → Computes x? x P) (hy : ¬c → Computes y? y P) :
    Computes (if c then x? else y?) (if c then x else y) P := by
  by_cases h : c
  · rw [if_pos h, if_pos h]
    exact hx h
  · rw [if_neg h, if_neg h]
    exact hy h

end Computes

end TextCodec
