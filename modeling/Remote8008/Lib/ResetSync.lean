import Mathlib.Data.List.Induction
import Remote8008.Lib.Machine

/-!
# Reset synchronizers with asynchronous assertion

Two flip-flops in a row whose asynchronous preset is the gate and whose data input is
zero: a high gate forces both to one at once, and a low gate lets the zero through on two
edges of the clock. The machine they are part of is left open; it only has to drive the
gate and to say which inputs are edges of the clock.
-/

namespace Remote8008.Lib.ResetSync
open Machine

structure Sync where
  rst1 : Bool
  rst : Bool
  deriving DecidableEq, Repr

namespace Sync

def preset : Sync := ⟨true, true⟩

/-- The preset dominates whatever the flip-flops hold. -/
def force (gate : Bool) (s : Sync) : Sync := if gate then preset else s

/-- A clock edge with the gate low. -/
def shift (s : Sync) : Sync := ⟨false, s.rst1⟩

@[simp] theorem force_true (s : Sync) : s.force true = preset := rfl

@[simp] theorem force_false (s : Sync) : s.force false = s := rfl

end Sync

variable {σ ι : Type*}

/-- A synchronizer inside a machine. An edge samples under the gate before it, and the
gate after the step presets again. -/
structure Follows (step : σ → ι → σ) (gate : σ → Bool) (ticks : ι → Bool) (sync : σ → Sync) :
    Prop where
  law : ∀ s i, sync (step s i) =
    (if ticks i then (sync s).shift.force (gate s) else sync s).force (gate (step s i))

/-- The gate is low from the state after `before` on, up to the end of the inputs. -/
def LowSince (step : σ → ι → σ) (gate : σ → Bool) (s : σ) (before inputs : List ι) : Prop :=
  ∀ n, before.length ≤ n → n ≤ inputs.length → gate (run step s (inputs.take n)) = false

theorem LowSince.concat {step : σ → ι → σ} {gate : σ → Bool} {s : σ} {before inputs : List ι}
    (low : LowSince step gate s before inputs) {i : ι}
    (now : gate (step (run step s inputs) i) = false) :
    LowSince step gate s before (inputs ++ [i]) := by
  intro n after within
  rcases Nat.lt_or_ge inputs.length n with last | inside
  · have whole : (inputs ++ [i]).length ≤ n := by
      rw [List.length_append, List.length_singleton]
      exact last
    rw [List.take_of_length_le whole, run_concat]
    exact now
  · rw [List.take_append_of_le_length inside]
    exact low n after inside

/-- The first flip-flop is clear because of an edge since which the gate has been low; as
long as the second is set that was the last edge. -/
def Loaded (step : σ → ι → σ) (gate : σ → Bool) (ticks : ι → Bool) (sync : σ → Sync) (s : σ)
    (inputs : List ι) : Prop :=
  (sync (run step s inputs)).rst1 = false →
    ∃ before first mid, inputs = before ++ first :: mid ∧ ticks first = true ∧
      LowSince step gate s before inputs ∧
      ((sync (run step s inputs)).rst = true → ∀ j ∈ mid, ticks j = false)

section
variable {step : σ → ι → σ} {gate : σ → Bool} {ticks : ι → Bool} {sync : σ → Sync}

theorem Follows.low_after (follows : Follows step gate ticks sync) {s : σ} {i : ι}
    (clear : (sync (step s i)).rst1 = false ∨ (sync (step s i)).rst = false) :
    gate (step s i) = false := by
  have law := follows.law s i
  cases after : gate (step s i) with
  | true => simp [law, after, Sync.preset] at clear
  | false => rfl

theorem Follows.step_idle (follows : Follows step gate ticks sync) {s : σ} {i : ι}
    (idle : ticks i = false) (after : gate (step s i) = false) : sync (step s i) = sync s := by
  simp [follows.law, after, idle]

/-- An edge that leaves a flip-flop clear met a low gate. -/
theorem Follows.step_edge (follows : Follows step gate ticks sync) {s : σ} {i : ι}
    (tick : ticks i = true)
    (clear : (sync (step s i)).rst1 = false ∨ (sync (step s i)).rst = false) :
    gate s = false ∧ sync (step s i) = (sync s).shift := by
  have law := follows.law s i
  rw [follows.low_after clear, tick, if_pos rfl, Sync.force_false] at law
  cases before : gate s with
  | true => simp [law, before, Sync.preset] at clear
  | false => simpa [before] using law

theorem Follows.loaded (follows : Follows step gate ticks sync) {s : σ}
    (start : sync s = .preset) (inputs : List ι) : Loaded step gate ticks sync s inputs := by
  induction inputs using List.reverseRecOn with
  | nil =>
    intro clear
    simp [start, Sync.preset] at clear
  | append_singleton inputs i ih =>
    intro clear
    rw [run_concat] at clear ⊢
    have still := follows.low_after (.inl clear)
    cases tick : ticks i with
    | false =>
      rw [follows.step_idle tick still] at clear ⊢
      obtain ⟨before, first, mid, split, edge, since, only⟩ := ih clear
      refine ⟨before, first, mid ++ [i], by simp [split], edge, since.concat still, fun held => ?_⟩
      exact List.forall_mem_append.mpr ⟨only held, List.forall_mem_singleton.mpr tick⟩
    | true =>
      obtain ⟨low, shifted⟩ := follows.step_edge tick (.inl clear)
      by_cases loaded : (sync (run step s inputs)).rst1 = false
      · -- the second edge releases, and the first stays where it was
        obtain ⟨before, first, mid, split, edge, since, only⟩ := ih loaded
        refine ⟨before, first, mid ++ [i], by simp [split], edge, since.concat still,
          fun held => ?_⟩
        simp [shifted, Sync.shift, loaded] at held
      · have here : LowSince step gate s inputs inputs := by
          intro n after within
          rwa [List.take_of_length_le after]
        exact ⟨inputs, i, [], rfl, tick, here.concat still, by simp⟩

/-- A release happens on an edge, and the last edge before it already met a low gate that
has stayed low. -/
theorem Follows.release (follows : Follows step gate ticks sync) {s : σ}
    (start : sync s = .preset) (inputs : List ι) (i : ι)
    (was : (sync (run step s inputs)).rst = true)
    (now : (sync (run step s (inputs ++ [i]))).rst = false) :
    ticks i = true ∧ ∃ before first mid, inputs = before ++ first :: mid ∧ ticks first = true ∧
      (∀ j ∈ mid, ticks j = false) ∧ LowSince step gate s before (inputs ++ [i]) := by
  rw [run_concat] at now
  have still := follows.low_after (.inr now)
  cases tick : ticks i with
  | false => simp [follows.step_idle tick still, was] at now
  | true =>
    have loaded : (sync (run step s inputs)).rst1 = false := by
      simpa [(follows.step_edge tick (.inr now)).2, Sync.shift] using now
    obtain ⟨before, first, mid, split, edge, since, only⟩ := follows.loaded start inputs loaded
    exact ⟨rfl, before, first, mid, split, edge, only was, since.concat still⟩

end

end Remote8008.Lib.ResetSync
