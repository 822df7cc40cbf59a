import Remote8008.Lib.Machine

/-!
# Latched bits of a machine

A bit that some inputs raise and that others keep is on after a run exactly when some
input raised it and every input since has kept it. For a bit that is set by some inputs
and cleared by others, where setting wins over a clear of the same input, an input keeps
the bit unless it clears it without setting it.
-/

namespace Remote8008.Lib.Latch
open Lib.Machine

variable {σ ι : Type*} {step : σ → ι → σ} {set clear : σ → ι → Bool}

/-- No input of the run from `s` clears the bit without setting it. -/
def Held (step : σ → ι → σ) (set clear : σ → ι → Bool) (s : σ) (inputs : List ι) : Prop :=
  ∀ before i later, inputs = before ++ i :: later → clear (run step s before) i = true →
    set (run step s before) i = true

theorem held_cons (s : σ) (i : ι) (rest : List ι) : Held step set clear s (i :: rest) ↔
    (clear s i = true → set s i = true) ∧ Held step set clear (step s i) rest := by
  constructor
  · intro held
    refine ⟨held [] i rest rfl, fun before j later split => ?_⟩
    exact held (i :: before) j later (by simp [split])
  · rintro ⟨first, later⟩ before j others split
    cases before with
    | nil =>
      obtain ⟨rfl, rfl⟩ : i = j ∧ rest = others := by simpa using split
      exact first
    | cons k before =>
      obtain ⟨rfl, rfl⟩ : i = k ∧ rest = before ++ j :: others := by simpa using split
      exact later before j others rfl

theorem held_iff_stepwise (s : σ) (inputs : List ι) : Held step set clear s inputs ↔
    Stepwise step (fun s i => clear s i = true → set s i = true) s inputs := by
  induction inputs generalizing s with
  | nil => simp [Held, Stepwise]
  | cons i rest ih =>
    rw [held_cons, ih]
    rfl

/-- The last raising input decides: the bit is on from the start and kept, or raised on the
way and kept since. -/
theorem run_raised (bit : σ → Prop) {raises keeps : σ → ι → Prop}
    (law : ∀ s i, bit (step s i) ↔ raises s i ∨ (bit s ∧ keeps s i)) (inputs : List ι) (s : σ) :
    bit (run step s inputs) ↔
      (bit s ∧ Stepwise step keeps s inputs) ∨
      ∃ before i later, inputs = before ++ i :: later ∧ raises (run step s before) i ∧
        Stepwise step keeps (run step s (before ++ [i])) later := by
  induction inputs generalizing s with
  | nil => simp [Stepwise]
  | cons i rest ih =>
    rw [run_cons, ih, law]
    constructor
    · rintro (⟨raised | ⟨on, kept⟩, later⟩ | ⟨before, j, later, split, raised, kept⟩)
      · exact .inr ⟨[], i, rest, rfl, raised, later⟩
      · exact .inl ⟨on, kept, later⟩
      · exact .inr ⟨i :: before, j, later, by simp [split], raised, kept⟩
    · rintro (⟨on, kept, later⟩ | ⟨before, j, later, split, raised, kept⟩)
      · exact .inl ⟨.inr ⟨on, kept⟩, later⟩
      · cases before with
        | nil =>
          obtain ⟨rfl, rfl⟩ : i = j ∧ rest = later := by simpa using split
          exact .inl ⟨.inl raised, kept⟩
        | cons k before =>
          obtain ⟨rfl, rfl⟩ : i = k ∧ rest = before ++ j :: later := by simpa using split
          exact .inr ⟨before, j, later, rfl, raised, kept⟩

/-- The bit after a run: on from the start and held, or set on the way and held since. -/
theorem run_latched (bit : σ → Bool)
    (law : ∀ s i, bit (step s i) = (set s i || (bit s && !clear s i))) (inputs : List ι) (s : σ) :
    bit (run step s inputs) = true ↔
      (bit s = true ∧ Held step set clear s inputs) ∨
      ∃ before i later, inputs = before ++ i :: later ∧ set (run step s before) i = true ∧
        Held step set clear (run step s (before ++ [i])) later := by
  have raised : ∀ s i, bit (step s i) = true ↔
      set s i = true ∨ (bit s = true ∧ (clear s i = true → set s i = true)) := by
    intro s i
    rw [law]
    cases set s i <;> cases clear s i <;> simp
  simp only [held_iff_stepwise]
  exact run_raised (fun s => bit s = true) raised inputs s

end Remote8008.Lib.Latch
