import Remote8008.Lib.Machine

/-!
# Chains of flip-flops

A signal carried into another clock domain through flip-flops in a row, the newest sample
first. The machine the chain is part of is left open; it only has to say which inputs are
edges of the sampling clock. While the signal is constant, the last flip-flop can disagree
with it at no more edges than there are flip-flops, whatever they held before.
-/

namespace Remote8008.Lib.FlopChain
open Machine

variable {σ ι α : Type*}

/-- One edge: every flip-flop takes the value before it. -/
def shift (flops : List α) (sample : α) : List α := (sample :: flops).take flops.length

@[simp] theorem shift_length (flops : List α) (sample : α) :
    (shift flops sample).length = flops.length := by
  simp [shift]

/-- A chain inside a machine. -/
structure Chained (step : σ → ι → σ) (ticks : ι → Bool) (input : σ → α) (flops : σ → List α) :
    Prop where
  law : ∀ s i, flops (step s i) = if ticks i then shift (flops s) (input s) else flops s

/-- The first `k` flip-flops hold `v`. -/
def Filled (v : α) (k : Nat) (flops : List α) : Prop := ∀ x ∈ flops.take k, x = v

theorem filled_zero (v : α) (flops : List α) : Filled v 0 flops := by
  intro x member
  simp at member

theorem Filled.shift {v : α} {k : Nat} {flops : List α} (filled : Filled v k flops) :
    Filled v (k + 1) (shift flops v) := by
  intro x member
  rw [FlopChain.shift, List.take_take] at member
  have either : x = v ∨ x ∈ flops.take k := by
    have inside := List.take_subset_take_left (v :: flops) (Nat.min_le_left (k + 1) _) member
    simpa using inside
  exact either.elim id (filled x)

theorem Filled.last {v : α} {k : Nat} {flops : List α} (filled : Filled v k flops)
    (whole : flops.length ≤ k) (some : flops ≠ []) : flops.getLast? = .some v := by
  obtain ⟨x, last⟩ := List.getLast?_isSome.mpr some |> Option.isSome_iff_exists.mp
  have member : x ∈ flops := List.mem_of_getLast? last
  rw [last, filled x (by rwa [List.take_of_length_le whole])]

theorem Chained.length {step : σ → ι → σ} {ticks : ι → Bool} {input : σ → α} {flops : σ → List α}
    (chained : Chained step ticks input flops) (s : σ) (i : ι) :
    (flops (step s i)).length = (flops s).length := by
  rw [chained.law]
  split
  · exact shift_length _ _
  · rfl

section
variable [DecidableEq α] (ticks : ι → Bool) (flops : σ → List α)

/-- An edge that finds something else than `v` at the end of the chain. -/
def stale (v : α) (s : σ) (i : ι) : List ι :=
  if ticks i = true ∧ (flops s).getLast? ≠ some v then [i] else []

variable {ticks flops} {step : σ → ι → σ} {input : σ → α}

/-- Every edge under a constant signal fills one more flip-flop, and only edges that find
the chain not yet full can be stale. -/
theorem Chained.stale_le_unfilled (chained : Chained step ticks input flops) {v : α}
    {inputs : List ι} {s : σ} (constant : Stepwise step (fun s _ => input s = v) s inputs)
    {k : Nat} (filled : Filled v k (flops s)) (nonempty : flops s ≠ []) :
    (outputs step (stale ticks flops v) s inputs).length ≤ (flops s).length - k := by
  induction inputs generalizing s k with
  | nil => exact Nat.zero_le _
  | cons i rest ih =>
    have long := chained.length s i
    have nonempty' : flops (step s i) ≠ [] := by
      intro empty
      rw [empty] at long
      exact nonempty (List.length_eq_zero_iff.mp long.symm)
    rw [outputs_cons, List.length_append]
    cases tick : ticks i with
    | false =>
      have here : stale ticks flops v s i = [] := by simp [stale, tick]
      have kept : Filled v k (flops (step s i)) := by
        rw [chained.law, tick]
        exact filled
      have later := ih constant.2 kept nonempty'
      rw [here, List.length_nil]
      omega
    | true =>
      have more : Filled v (k + 1) (flops (step s i)) := by
        rw [chained.law, tick, if_pos rfl, constant.1]
        exact filled.shift
      have later := ih constant.2 more nonempty'
      by_cases full : (flops s).length ≤ k
      · have here : stale ticks flops v s i = [] := by
          simp [stale, filled.last full nonempty]
        rw [here, List.length_nil]
        omega
      · have here : (stale ticks flops v s i).length ≤ 1 := by
          unfold stale
          split
          · exact Nat.le_refl 1
          · exact Nat.zero_le 1
        omega

/-- Under a constant signal at most as many edges are stale as there are flip-flops. -/
theorem Chained.stale_le (chained : Chained step ticks input flops) {v : α} {inputs : List ι}
    {s : σ} (constant : Stepwise step (fun s _ => input s = v) s inputs) (nonempty : flops s ≠ []) :
    (outputs step (stale ticks flops v) s inputs).length ≤ (flops s).length :=
  chained.stale_le_unfilled constant (filled_zero v _) nonempty

end

/-! ## Two clocks without a phase relation -/

/-- Never more than `pace` inputs in a row that are no ticks, with `gap` of them before the
first. -/
def Paced (ticks : ι → Bool) (pace : Nat) : Nat → List ι → Prop
  | _, [] => True
  | gap, i :: rest =>
    if ticks i then Paced ticks pace 0 rest else gap + 1 ≤ pace ∧ Paced ticks pace (gap + 1) rest

instance decidablePaced (ticks : ι → Bool) (pace : Nat) :
    ∀ gap inputs, Decidable (Paced ticks pace gap inputs)
  | _, [] => inferInstanceAs (Decidable True)
  | gap, i :: rest =>
    have := decidablePaced ticks pace 0 rest
    have := decidablePaced ticks pace (gap + 1) rest
    inferInstanceAs (Decidable (if ticks i then Paced ticks pace 0 rest
      else gap + 1 ≤ pace ∧ Paced ticks pace (gap + 1) rest))

section
variable {ticks : ι → Bool} {pace : Nat}

/-- The inputs that are no ticks fill the gaps before, between and after the ticks. -/
theorem Paced.count {gap : Nat} (within : gap ≤ pace) {inputs : List ι}
    (paced : Paced ticks pace gap inputs) :
    gap + inputs.countP (fun i => !ticks i) ≤ pace * (inputs.countP ticks + 1) := by
  induction inputs generalizing gap with
  | nil => simpa using within
  | cons i rest ih =>
    cases tick : ticks i with
    | true =>
      have later : Paced ticks pace 0 rest := by simpa [Paced, tick] using paced
      have counted := ih (Nat.zero_le pace) later
      simp only [List.countP_cons, tick, Bool.not_true, Bool.false_eq_true, ↓reduceIte,
        Nat.add_zero, Nat.mul_add] at counted ⊢
      omega
    | false =>
      have both : gap + 1 ≤ pace ∧ Paced ticks pace (gap + 1) rest := by
        simpa [Paced, tick] using paced
      have counted := ih both.1 both.2
      simp only [List.countP_cons, tick, Bool.not_false, Bool.false_eq_true, ↓reduceIte,
        Nat.add_zero] at counted ⊢
      omega

end

end Remote8008.Lib.FlopChain
