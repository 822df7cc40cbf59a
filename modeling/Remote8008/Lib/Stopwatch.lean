import Remote8008.Lib.Machine

/-!
# Machines restarted by their input

A waveform gives the input of every step of an unbounded run. Some inputs restart the
machine; `since` counts the steps after the last of them, or from the beginning. What the
machine does between two restarts is a function of that count, and the rule below shows
it by one step at a time. A stretch is a maximal run of steps without a restart.
-/

namespace Remote8008.Lib.Stopwatch
open Machine

variable {σ ι : Type*}

/-- The state after the first `t` inputs of a waveform. -/
def stateAt (step : σ → ι → σ) (s : σ) (wave : Nat → ι) (t : Nat) : σ :=
  run step s ((List.range t).map wave)

theorem stateAt_succ (step : σ → ι → σ) (s : σ) (wave : Nat → ι) (t : Nat) :
    stateAt step s wave (t + 1) = step (stateAt step s wave t) (wave t) := by
  rw [stateAt, List.range_succ, List.map_append, List.map_singleton, run_concat]
  rfl

section
variable (restarts : ι → Bool) (wave : Nat → ι)

/-- The inputs after the last restart among the first `t`. -/
def since : Nat → Nat
  | 0 => 0
  | t + 1 => if restarts (wave t) then 0 else since t + 1

/-- A stretch begins with input `a`. -/
def Begins (a : Nat) : Prop :=
  restarts (wave a) = false ∧ ∀ before, a = before + 1 → restarts (wave before) = true

/-- Input `t` lies in the stretch that begins with input `a`. -/
def InStretch (a t : Nat) : Prop := a ≤ t ∧ ∀ i, a ≤ i → i ≤ t → restarts (wave i) = false

variable {restarts wave}

theorem since_begin {a : Nat} (begins : Begins restarts wave a) : since restarts wave a = 0 := by
  cases a with
  | zero => rfl
  | succ before =>
    rw [since, begins.2 before rfl]
    rfl

/-- Within a stretch the count is the distance from its beginning. -/
theorem since_stretch {a : Nat} (begins : Begins restarts wave a) (k : Nat)
    (inside : InStretch restarts wave a (a + k)) : since restarts wave (a + k + 1) = k + 1 := by
  induction k with
  | zero =>
    rw [Nat.add_zero, since, begins.1, since_begin begins]
    rfl
  | succ k ih =>
    have earlier : InStretch restarts wave a (a + k) :=
      ⟨by omega, fun i low high => inside.2 i low (by omega)⟩
    rw [since, inside.2 (a + (k + 1)) (by omega) (by omega), ← Nat.add_assoc, ih earlier]
    rfl

end

/-- Stopwatch rule: an invariant indexed by the inputs since the last restart. -/
theorem stateAt_since {step : σ → ι → σ} {restarts : ι → Bool} (inv : Nat → σ → Prop)
    (restarted : ∀ s i, restarts i = true → inv 0 (step s i))
    (counted : ∀ k s i, restarts i = false → inv k s → inv (k + 1) (step s i)) {s : σ}
    (start : inv 0 s) (wave : Nat → ι) (t : Nat) :
    inv (since restarts wave t) (stateAt step s wave t) := by
  induction t with
  | zero => exact start
  | succ t ih =>
    rw [stateAt_succ, since]
    cases hit : restarts (wave t) with
    | true => exact restarted _ _ hit
    | false => exact counted _ _ _ hit ih

end Remote8008.Lib.Stopwatch
