import Mathlib.Data.List.Basic

/-!
# Machines driven by a list of inputs

A machine is a bare step function. `run` consumes the inputs oldest first, and
`outputs` collects what each input produces in the state it meets. The rules
below are the only inductions over runs in the clocked part of the development:
an invariant of the step is an invariant of every run, and a step that conserves
a content list conserves it over every run.
-/

namespace Remote8008.Lib.Machine

variable {σ ι ω : Type*}

/-- State reached from `s` after every input, oldest first. -/
def run (step : σ → ι → σ) (s : σ) (inputs : List ι) : σ :=
  inputs.foldl step s

/-- What the inputs produce, each observed in the state before its own step. -/
def outputs (step : σ → ι → σ) (out : σ → ι → List ω) : σ → List ι → List ω
  | _, [] => []
  | s, i :: rest => out s i ++ outputs step out (step s i) rest

@[simp] theorem run_nil (step : σ → ι → σ) (s : σ) : run step s [] = s := rfl

@[simp] theorem run_cons (step : σ → ι → σ) (s : σ) (i : ι) (rest : List ι) :
    run step s (i :: rest) = run step (step s i) rest := rfl

theorem run_append (step : σ → ι → σ) (s : σ) (first second : List ι) :
    run step s (first ++ second) = run step (run step s first) second := by
  simp [run, List.foldl_append]

theorem run_concat (step : σ → ι → σ) (s : σ) (inputs : List ι) (i : ι) :
    run step s (inputs ++ [i]) = step (run step s inputs) i := by
  simp [run_append]

@[simp] theorem outputs_nil (step : σ → ι → σ) (out : σ → ι → List ω) (s : σ) :
    outputs step out s [] = [] := rfl

@[simp] theorem outputs_cons (step : σ → ι → σ) (out : σ → ι → List ω) (s : σ) (i : ι)
    (rest : List ι) :
    outputs step out s (i :: rest) = out s i ++ outputs step out (step s i) rest := rfl

theorem outputs_append (step : σ → ι → σ) (out : σ → ι → List ω) (s : σ)
    (first second : List ι) : outputs step out s (first ++ second) =
      outputs step out s first ++ outputs step out (run step s first) second := by
  induction first generalizing s with
  | nil => rfl
  | cons i rest ih =>
    rw [List.cons_append, outputs_cons, outputs_cons, run_cons, ih, List.append_assoc]

/-- Invariant rule: the inputs may be restricted to those satisfying `ok`, and the run may
be assumed to meet `meets` in each state it passes. -/
theorem run_invariant_under {step : σ → ι → σ} (inv meets : σ → Prop) (ok : ι → Prop)
    (preserved : ∀ s i, ok i → meets s → inv s → inv (step s i)) (inputs : List ι)
    (allowed : ∀ i ∈ inputs, ok i) (s : σ) (assumed : ∀ n, meets (run step s (inputs.take n)))
    (start : inv s) : inv (run step s inputs) := by
  induction inputs generalizing s with
  | nil => exact start
  | cons i rest ih =>
    apply ih (fun j member => allowed j (by simp [member])) (step s i)
      (fun n => assumed (n + 1))
    exact preserved s i (allowed i (by simp)) (assumed 0) start

/-- Invariant rule: the inputs may be restricted to those satisfying `ok`. -/
theorem run_invariant {step : σ → ι → σ} (inv : σ → Prop) (ok : ι → Prop)
    (preserved : ∀ s i, ok i → inv s → inv (step s i)) (inputs : List ι)
    (allowed : ∀ i ∈ inputs, ok i) (s : σ) (start : inv s) : inv (run step s inputs) :=
  run_invariant_under inv (fun _ => True) ok (fun s i fine _ => preserved s i fine) inputs
    allowed s (fun _ => trivial) start

/-- Invariant rule for runs that meet an assumption in each state they pass. -/
theorem run_invariant_along {step : σ → ι → σ} (inv meets : σ → Prop)
    (preserved : ∀ s i, meets s → inv s → inv (step s i)) (inputs : List ι) (s : σ)
    (assumed : ∀ n, meets (run step s (inputs.take n))) (start : inv s) :
    inv (run step s inputs) :=
  run_invariant_under inv meets (fun _ => True) (fun s i _ => preserved s i) inputs
    (fun _ _ => trivial) s assumed start

/-- Every input meets `meets` in the state that consumes it. -/
def Stepwise (step : σ → ι → σ) (meets : σ → ι → Prop) : σ → List ι → Prop
  | _, [] => True
  | s, i :: rest => meets s i ∧ Stepwise step meets (step s i) rest

instance decidableStepwise (step : σ → ι → σ) (meets : σ → ι → Prop)
    [∀ s i, Decidable (meets s i)] : ∀ s inputs, Decidable (Stepwise step meets s inputs)
  | _, [] => inferInstanceAs (Decidable True)
  | s, i :: rest =>
    have := decidableStepwise step meets (step s i) rest
    inferInstanceAs (Decidable (meets s i ∧ Stepwise step meets (step s i) rest))

theorem stepwise_concat {step : σ → ι → σ} {meets : σ → ι → Prop} {s : σ} {inputs : List ι} {i : ι}
    (earlier : Stepwise step meets s inputs) (last : meets (run step s inputs) i) :
    Stepwise step meets s (inputs ++ [i]) := by
  induction inputs generalizing s with
  | nil => exact ⟨last, trivial⟩
  | cons j rest ih => exact ⟨earlier.1, ih earlier.2 last⟩

theorem stepwise_congr {step : σ → ι → σ} {meets meets' : σ → ι → Prop} {inputs : List ι}
    (same : ∀ i ∈ inputs, ∀ s, meets s i ↔ meets' s i) (s : σ) :
    Stepwise step meets s inputs ↔ Stepwise step meets' s inputs := by
  induction inputs generalizing s with
  | nil => exact Iff.rfl
  | cons i rest ih =>
    have here := same i (by simp) s
    have later := ih (fun j member => same j (by simp [member])) (step s i)
    exact and_congr here later

/-- Invariant rule for runs each of whose steps meets an assumption. -/
theorem run_invariant_stepwise {step : σ → ι → σ} (inv : σ → Prop) {meets : σ → ι → Prop}
    (preserved : ∀ s i, meets s i → inv s → inv (step s i)) {inputs : List ι} {s : σ}
    (assumed : Stepwise step meets s inputs) (start : inv s) : inv (run step s inputs) := by
  induction inputs generalizing s with
  | nil => exact start
  | cons i rest ih => exact ih assumed.2 (preserved s i assumed.1 start)

/-- What is produced less of at each step is produced less of over a run. -/
theorem outputs_length_le {ω' : Type*} {step : σ → ι → σ} {out : σ → ι → List ω}
    {out' : σ → ι → List ω'} {meets : σ → ι → Prop} {inputs : List ι} {s : σ}
    (fewer : ∀ s i, meets s i → (out s i).length ≤ (out' s i).length)
    (assumed : Stepwise step meets s inputs) :
    (outputs step out s inputs).length ≤ (outputs step out' s inputs).length := by
  induction inputs generalizing s with
  | nil => exact Nat.le_refl 0
  | cons i rest ih =>
    rw [outputs_cons, outputs_cons, List.length_append, List.length_append]
    exact Nat.add_le_add (fewer s i assumed.1) (ih assumed.2)

/-- Some run from `s` on inputs in `ok` ends in a state with `goal`. -/
def Reaches (step : σ → ι → σ) (ok : ι → Prop) (s : σ) (goal : σ → Prop) : Prop :=
  ∃ inputs, (∀ i ∈ inputs, ok i) ∧ goal (run step s inputs)

section
variable {step : σ → ι → σ} {ok : ι → Prop} {s : σ} {goal goal' : σ → Prop}

theorem Reaches.here (meets : goal s) : Reaches step ok s goal := ⟨[], by simp, meets⟩

theorem Reaches.mono (reaches : Reaches step ok s goal) (weaker : ∀ t, goal t → goal' t) :
    Reaches step ok s goal' := by
  obtain ⟨inputs, allowed, meets⟩ := reaches
  exact ⟨inputs, allowed, weaker _ meets⟩

theorem Reaches.next (reaches : Reaches step ok s goal) (i : ι) (fair : ok i)
    (moves : ∀ t, goal t → goal' (step t i)) : Reaches step ok s goal' := by
  obtain ⟨inputs, allowed, meets⟩ := reaches
  refine ⟨inputs ++ [i], ?_, by rw [run_concat]; exact moves _ meets⟩
  exact List.forall_mem_append.mpr ⟨allowed, List.forall_mem_singleton.mpr fair⟩

end

/-- Simulation rule for two runs on the same inputs, of which the first meets an
assumption. -/
theorem run_related {step : σ → ι → σ} (related : σ → σ → Prop) {meets : σ → ι → Prop}
    (preserved : ∀ s t i, meets s i → related s t → related (step s i) (step t i))
    {inputs : List ι} {s t : σ} (assumed : Stepwise step meets s inputs) (start : related s t) :
    related (run step s inputs) (run step t inputs) := by
  induction inputs generalizing s t with
  | nil => exact start
  | cons i rest ih => exact ih assumed.2 (preserved s t i assumed.1 start)

/-- Conservation rule. When each step turns `contents ++ accepted` into
`delivered ++ contents`, a whole run delivers exactly what it started with and
accepted, in order, up to what it still holds. -/
theorem run_conserves {step : σ → ι → σ} {accepted delivered : σ → ι → List ω}
    (contents : σ → List ω) (inv : σ → Prop) {ok : ι → Prop}
    (preserved : ∀ s i, ok i → inv s → inv (step s i))
    (balance : ∀ s i, ok i → inv s →
      contents s ++ accepted s i = delivered s i ++ contents (step s i))
    (inputs : List ι) (allowed : ∀ i ∈ inputs, ok i) (s : σ) (start : inv s) :
    contents s ++ outputs step accepted s inputs =
      outputs step delivered s inputs ++ contents (run step s inputs) := by
  induction inputs generalizing s with
  | nil => simp
  | cons i rest ih =>
    have here := balance s i (allowed i (by simp)) start
    have later := ih (fun j member => allowed j (by simp [member])) (step s i)
      (preserved s i (allowed i (by simp)) start)
    simp only [outputs_cons, run_cons]
    rw [← List.append_assoc, here, List.append_assoc, later, List.append_assoc]

end Remote8008.Lib.Machine
