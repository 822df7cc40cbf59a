import Mathlib.Data.List.Induction
import Remote8008.Source.ConsoleBridge

/-!
# Backpressure never loses a byte

soc/console_bridge.py:19-49,163-189. `stall` is a registered comparison of the
raw level, so the byte presented in the cycle that first reaches the high mark
still arrives unstalled. From then on a stretch of stalled cycles can add only
its in-flight bytes: the level stays within `hwm + 1` plus the bytes presented
in the current stretch. Released at the low mark, the level is back under `hwm`
and the next stretch starts from the same bound.
-/

namespace Remote8008.Guarantees.RxBackpressure
open Lib.BufferedFifo Lib.Machine Source.ConsoleBridge

variable {rxDepth txDepth : Nat}

/-- Bytes the PHY presents during a list of cycles. -/
def presented (cycles : List Cycle) : Nat := cycles.countP fun c => c.phySource.isSome

/-- `stall` is 1 in every one of these cycles, starting in state `s`. -/
def StalledThroughout : State rxDepth txDepth → List Cycle → Prop
  | _, [] => True
  | s, c :: rest => s.stall = true ∧ StalledThroughout (s.step c) rest

/-- At most 63 bytes are presented within any stretch of stalled cycles. A
stretch inside a longer one presents no more than it, so this is the budget of
the maximal stretches. -/
def InFlightBudget (rxDepth txDepth : Nat) (cycles : List Cycle) : Prop :=
  ∀ before stretch later, cycles = before ++ stretch ++ later →
    StalledThroughout (after before : State rxDepth txDepth) stretch → presented stretch ≤ 63

theorem presented_concat (cycles : List Cycle) (c : Cycle) :
    presented (cycles ++ [c]) = presented cycles + c.phySource.toList.length := by
  cases h : c.phySource <;> simp [presented, h]

theorem stalledThroughout_concat (s : State rxDepth txDepth) (stretch : List Cycle) (c : Cycle)
    (stalled : StalledThroughout s stretch) (still : (run State.step s stretch).stall = true) :
    StalledThroughout s (stretch ++ [c]) := by
  induction stretch generalizing s with
  | nil => exact ⟨still, trivial⟩
  | cons d rest ih => exact ⟨stalled.1, ih _ stalled.2 still⟩

theorem step_rxLevel_le (s : State rxDepth txDepth) (c : Cycle) :
    (s.step c).rxFifo.level ≤ s.rxFifo.level + c.phySource.toList.length := by
  cases hrst : c.rst with
  | true => simp [State.step, hrst]
  | false => simpa [State.step, hrst] using
      s.rxFifo.step_level_le c.phySource (s.rxSourceReady c)

/-- How a stall begins and ends, with the level that decided it. -/
theorem step_stall_cases (s : State rxDepth txDepth) (c : Cycle) :
    ((s.step c).stall = true ∧ ((s.rxFifo.level : Int) ≥ hwm rxDepth ∨ s.stall = true)) ∨
    ((s.step c).stall = false ∧ ((s.step c).rxFifo.level = 0 ∨
      (s.rxFifo.level : Int) ≤ lwm rxDepth ∨
      (s.stall = false ∧ (s.rxFifo.level : Int) < hwm rxDepth))) := by
  cases hrst : c.rst with
  | true => simp [State.step, hrst]
  | false =>
    simp only [State.step, hrst, State.nextStall, Bool.false_eq_true, ↓reduceIte]
    by_cases high : (s.rxFifo.level : Int) ≥ hwm rxDepth
    · simp [high]
    · by_cases low : (s.rxFifo.level : Int) ≤ lwm rxDepth
      · simp [high, low]
      · cases hstall : s.stall
        · simp [high, low]
          omega
        · simp [high, low]

/-- The level at the end of `cycles`, bounded through the stretch of stalled
cycles that ends there (empty when `stall` is 0). -/
def LevelBound (rxDepth txDepth : Nat) (cycles : List Cycle) : Prop :=
  ∃ before stretch, cycles = before ++ stretch ∧
    StalledThroughout (after before : State rxDepth txDepth) stretch ∧
    ((after cycles : State rxDepth txDepth).stall = false → stretch = []) ∧
    ((after cycles : State rxDepth txDepth).rxFifo.level : Int) ≤
      hwm rxDepth + (after cycles : State rxDepth txDepth).stall.toNat + presented stretch

theorem levelBound_step (deep : 128 ≤ rxDepth) (cycles : List Cycle) (c : Cycle)
    (bound : LevelBound rxDepth txDepth cycles) :
    LevelBound rxDepth txDepth (cycles ++ [c]) := by
  obtain ⟨before, stretch, rfl, stalled, unstalled, level⟩ := bound
  have grows := step_rxLevel_le (after (before ++ stretch) : State rxDepth txDepth) c
  have one : c.phySource.toList.length ≤ 1 := by cases c.phySource <;> simp
  have marks : lwm rxDepth + 64 = hwm rxDepth ∧ hwm rxDepth ≥ 64 := by
    simp only [lwm, hwm, rxHeadroom, rxHysteresis]
    omega
  have next := step_stall_cases (after (before ++ stretch) : State rxDepth txDepth) c
  rw [← after_concat] at next grows
  rcases next with ⟨rises, cause⟩ | ⟨falls, cause⟩
  · cases hstall : (after (before ++ stretch) : State rxDepth txDepth).stall with
    | true =>
      -- the stretch goes on and is charged with this cycle's byte
      refine ⟨before, stretch ++ [c], by simp, ?_,
        fun calm => absurd (rises.symm.trans calm) (by decide), ?_⟩
      · apply stalledThroughout_concat _ _ _ stalled
        rw [after, ← run_append]
        exact hstall
      · rw [presented_concat, rises]
        rw [hstall] at level
        push_cast
        simp only [Bool.toNat_true] at *
        omega
    | false =>
      -- first stalled cycle: the level was still at most the high mark
      have quiet : presented stretch = 0 := by rw [unstalled hstall]; rfl
      refine ⟨before ++ stretch ++ [c], [], by simp, trivial, by simp, ?_⟩
      rw [hstall, quiet] at level
      rw [rises]
      simp only [presented, List.countP_nil, Bool.toNat_true, Bool.toNat_false] at *
      omega
  · refine ⟨before ++ stretch ++ [c], [], by simp, trivial, by simp, ?_⟩
    rw [falls]
    simp only [presented, List.countP_nil, Bool.toNat_false]
    omega

variable (rxDepth txDepth) in
theorem levelBound_run (deep : 128 ≤ rxDepth) (cycles : List Cycle) :
    LevelBound rxDepth txDepth cycles := by
  induction cycles using List.reverseRecOn with
  | nil =>
    refine ⟨[], [], rfl, trivial, fun _ => rfl, ?_⟩
    simp only [after, powerOn, run_nil, Fifo.level_empty, Bool.toNat_false, presented,
      List.countP_nil, hwm, rxHeadroom]
    omega
  | append_singleton cycles c ih => exact levelBound_step deep cycles c ih

/-- A byte presented within the budget finds room in the inner FIFO. -/
theorem ready_of_presented (deep : 128 ≤ rxDepth) (before : List Cycle) (c : Cycle)
    (later : List Cycle) (budget : InFlightBudget rxDepth txDepth (before ++ c :: later))
    (byte : c.phySource.isSome = true) :
    (after before : State rxDepth txDepth).rxSinkReady = true := by
  obtain ⟨first, stretch, split, stalled, unstalled, level⟩ :=
    levelBound_run rxDepth txDepth deep before
  have one : c.phySource.toList.length = 1 := by
    cases h : c.phySource <;> simp [h] at byte ⊢
  apply Fifo.writable_of_level_lt
  cases hstall : (after before : State rxDepth txDepth).stall with
  | true =>
    have charged := budget first (stretch ++ [c]) later (by simp [split]) (by
      apply stalledThroughout_concat _ _ _ stalled
      rw [after, ← run_append, ← split]
      exact hstall)
    rw [presented_concat, one] at charged
    rw [hstall] at level
    simp only [hwm, rxHeadroom, Bool.toNat_true] at level
    omega
  | false =>
    rw [hstall, unstalled hstall] at level
    simp only [hwm, rxHeadroom, Bool.toNat_false, presented, List.countP_nil] at level
    omega

/-- Backpressure is lossless. In every run from power-on within the in-flight
budget, whatever the pops and the resets: no byte is presented to a full FIFO,
`err_rx_overflow` is 0 in every cycle, and sticky bit 0 is never set. -/
theorem rx_never_overflows (deep : 128 ≤ rxDepth) (cycles : List Cycle)
    (budget : InFlightBudget rxDepth txDepth cycles) :
    (∀ before c later, cycles = before ++ c :: later →
      (c.phySource.isSome = true →
        (after before : State rxDepth txDepth).rxSinkReady = true) ∧
      (after before : State rxDepth txDepth).errRxOverflow c = false) ∧
    (∀ before later, cycles = before ++ later →
      (after before : State rxDepth txDepth).sticky 0 = false) := by
  have quiet : ∀ before c later, cycles = before ++ c :: later →
      (after before : State rxDepth txDepth).errRxOverflow c = false := by
    intro before c later split
    cases hbyte : c.phySource.isSome with
    | false => simp [State.errRxOverflow, hbyte]
    | true =>
      have ready := ready_of_presented deep before c later (split ▸ budget) hbyte
      simp [State.errRxOverflow, ready]
  refine ⟨?_, ?_⟩
  · intro before c later split
    exact ⟨ready_of_presented deep before c later (split ▸ budget), quiet before c later split⟩
  · intro before
    -- the sticky bit can only be set by the overflow of some earlier cycle
    induction before using List.reverseRecOn with
    | nil => intro _ _; rfl
    | append_singleton before c ih =>
      intro later split
      have split' : cycles = before ++ c :: later := by simpa using split
      have clear := ih (c :: later) split'
      have noError : (after before : State rxDepth txDepth).errSource c 0 = false :=
        quiet before c later split'
      rw [after_concat]
      simp [State.step, State.nextSticky, noError, clear]

/-- A byte in every cycle until `stall` has risen at depth 128. -/
def burst : List Cycle := List.replicate 66
  { rst := false, phySource := some 0x55, phySinkReady := false, consoleRxRead := false,
    consoleRxPop := false, consoleTxData := none, consoleErrClear := none }

theorem burst_budget : InFlightBudget 128 256 burst := by
  intro before stretch later split stalled
  cases stretch with
  | nil => exact Nat.zero_le _
  | cons c rest =>
    have few : presented (c :: rest) ≤ rest.length + 1 := List.countP_le_length
    have total := congrArg List.length split
    simp only [burst, List.length_replicate, List.length_append, List.length_cons] at total
    have start : before = burst.take before.length := by
      rw [split, List.append_assoc, List.take_left]
    have calm : ∀ n ≤ 2, (after (burst.take n) : State 128 256).stall = false := by decide
    have late : ¬ before.length ≤ 2 := by
      intro early
      have risen := stalled.1
      rw [start, calm _ early] at risen
      cases risen
    omega

theorem rx_never_overflows_burst :
    (after burst : State 128 256).stall = true ∧ (after burst : State 128 256).sticky 0 = false :=
  ⟨by decide +kernel,
    (rx_never_overflows (by decide) burst burst_budget).2 burst [] (by simp)⟩

end Remote8008.Guarantees.RxBackpressure
