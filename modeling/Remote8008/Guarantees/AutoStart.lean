import Mathlib.Algebra.Group.Nat.Defs
import Remote8008.Lib.Stopwatch
import Remote8008.Source.NetCore

/-!
# One press of run/stop for each reset

src/b8008_net_core.vhdl:251-292. The power-on counter runs on for ever and wraps, but the
flag it clears is set again only by `rst`; the auto-start counts from the fall of that
flag and stops for good when it has fired. Both are functions of the clocks since the
last edge with `rst`, whatever they held before it.
-/

namespace Remote8008.Guarantees.AutoStart
open Lib.Stopwatch Source.NetCore

/-- Clocks up to the first with bit 19 of `clk_counter`. -/
def porClocks : Nat := 2 ^ 19

/-- The count at which the auto-start fires. -/
def autoStartClocks : Nat := 50000

/-! ## The registers, by the clocks since `rst` -/

/-- The auto-start registers `j` clocks after the fall of `por_active`. -/
def armed (j : Nat) : AutoStart where
  cnt := BitVec.ofNat 17 (min j (autoStartClocks + 1))
  done := decide (autoStartClocks < j)
  pulse := decide (j = autoStartClocks + 1)

theorem armed_step (j : Nat) : (armed j).step false = armed (j + 1) := by
  have fires : (armed j).cnt = 50000 ↔ j = autoStartClocks := by
    rw [armed, ← BitVec.toNat_inj, BitVec.toNat_ofNat, autoStartClocks]
    change min j 50001 % 131072 = 50000 ↔ j = 50000
    omega
  have next : ∀ below : j ≤ autoStartClocks, (armed j).cnt + 1 = (armed (j + 1)).cnt := by
    intro below
    have now : min j (autoStartClocks + 1) = j := by omega
    have later : min (j + 1) (autoStartClocks + 1) = j + 1 := by omega
    rw [armed, armed, now, later, BitVec.ofNat_add]
    rfl
  rcases Nat.lt_trichotomy j autoStartClocks with below | here | above
  · have waiting : (armed j).done = false := by
      rw [armed, decide_eq_false (by omega)]
    have other : ¬ (armed j).cnt = 50000 := fun same => absurd (fires.mp same) (by omega)
    rw [AutoStart.step, if_neg (by simp [resetSw]), if_pos waiting, if_neg other,
      next (Nat.le_of_lt below), waiting]
    simp only [armed, AutoStart.mk.injEq, true_and]
    constructor
    · rw [decide_eq_false (by omega)]
    · rw [decide_eq_false (by omega)]
  · have waiting : (armed j).done = false := by
      rw [armed, decide_eq_false (by omega)]
    rw [AutoStart.step, if_neg (by simp [resetSw]), if_pos waiting, if_pos (fires.mpr here),
      next (Nat.le_of_eq here)]
    simp only [armed, AutoStart.mk.injEq, true_and]
    constructor
    · rw [decide_eq_true (by omega)]
    · rw [decide_eq_true (by omega)]
  · have fired : ¬ (armed j).done = false := by
      rw [armed, decide_eq_true above]
      simp
    rw [AutoStart.step, if_neg (by simp [resetSw]), if_neg fired]
    simp only [armed, AutoStart.mk.injEq]
    refine ⟨?_, ?_, ?_⟩
    · rw [Nat.min_eq_right (by omega), Nat.min_eq_right (by omega)]
    · rw [decide_eq_true above, decide_eq_true (by omega)]
    · rw [decide_eq_false (by omega)]

/-- The registers `k` clocks after an edge with `rst`. That edge itself still moves the
auto-start by the old flag, so nothing is known of it for `k = 0`. -/
structure Since (k : Nat) (s : State) : Prop where
  counter : s.por.clkCounter.toNat = k % 2 ^ 26
  por : s.por.porActive = decide (k ≤ porClocks)
  autoStart : 0 < k → s.autoStart = armed (k - (porClocks + 1))

theorem since_powerOn : Since 0 State.powerOn :=
  ⟨rfl, rfl, fun positive => absurd positive (by omega)⟩

theorem since_rst (s : State) {c : Cycle} (rst : c.rst = true) : Since 0 (s.step c) := by
  have cleared : (s.step c).por = ⟨0, true⟩ := by
    rw [State.step, Por.step, rst, if_pos rfl]
  exact ⟨by rw [cleared]; rfl, by rw [cleared]; rfl, fun positive => absurd positive (by omega)⟩

/-- Bit 19 of the counter shows for the first time after `porClocks` clocks. -/
theorem Since.bit {k : Nat} {s : State} (since : Since k s) (early : k ≤ porClocks) :
    s.por.clkCounter.getLsbD 19 = decide (k = porClocks) := by
  have value : s.por.clkCounter.toNat = k := by
    rw [since.counter]
    apply Nat.mod_eq_of_lt
    have small : porClocks < 2 ^ 26 := by decide
    omega
  rw [BitVec.getLsbD, value]
  rcases Nat.lt_or_eq_of_le early with below | here
  · rw [Nat.testBit_lt_two_pow below, decide_eq_false (Nat.ne_of_lt below)]
  · rw [here, porClocks, Nat.testBit_two_pow_self, decide_eq_true rfl]

theorem Since.step {k : Nat} {s : State} (since : Since k s) {c : Cycle} (running : c.rst = false) :
    Since (k + 1) (s.step c) := by
  have por : (s.step c).por = ⟨s.por.clkCounter + 1,
      if s.por.clkCounter.getLsbD 19 then false else s.por.porActive⟩ := by
    rw [State.step, Por.step, running]
    rfl
  constructor
  · rw [por, BitVec.toNat_add, since.counter]
    simp
  · rw [por]
    by_cases early : k ≤ porClocks
    · rw [since.bit early, since.por, decide_eq_true early]
      rcases Nat.lt_or_eq_of_le early with below | here
      · rw [decide_eq_false (Nat.ne_of_lt below), decide_eq_true (Nat.succ_le_of_lt below)]
        rfl
      · rw [decide_eq_true here, decide_eq_false (by omega)]
        rfl
    · rw [since.por, decide_eq_false early, ite_self, decide_eq_false (by omega)]
  · intro _
    change s.autoStart.step s.por.porActive = _
    rw [since.por]
    by_cases early : k ≤ porClocks
    · rw [decide_eq_true early, Nat.sub_eq_zero_of_le (by omega)]
      rfl
    · rw [decide_eq_false early, since.autoStart (by omega), armed_step,
        Nat.succ_sub (by omega)]

/-! ## Presses -/

/-- `auto_start_pulse` reaches the toggle of `debug_clock_control`. -/
def pressed (s : State) : Bool := s.btnRunStop && !s.debugReset

/-- The edge at which the press comes, counted from the first edge of the stretch. -/
def pressDelay : Nat := porClocks + 1 + autoStartClocks

theorem Since.pressed_iff {k : Nat} {s : State} (since : Since (k + 1) s) :
    pressed s = true ↔ k = pressDelay := by
  have registers := since.autoStart (Nat.succ_pos k)
  have flag := since.por
  rw [pressed, State.btnRunStop, State.debugReset, registers, flag]
  simp only [armed, resetSw, Bool.or_false, Bool.and_eq_true, decide_eq_true_eq, Bool.not_eq_true',
    decide_eq_false_iff_not, pressDelay]
  omega

/-- The wrapper after the first `t` edges. -/
def coreAt (wave : Nat → Cycle) (t : Nat) : State := stateAt State.step State.powerOn wave t

/-- The clock that edge `t` opens has a press. -/
def Press (wave : Nat → Cycle) (t : Nat) : Prop := pressed (coreAt wave (t + 1)) = true

theorem coreAt_since (wave : Nat → Cycle) (t : Nat) :
    Since (since Cycle.rst wave t) (coreAt wave t) :=
  stateAt_since Since (fun s c (rst : c.rst = true) => since_rst s rst)
    (fun _ _ c (running : c.rst = false) h => h.step running) since_powerOn wave t

theorem press_in_stretch {wave : Nat → Cycle} {a t : Nat} (begins : Begins Cycle.rst wave a)
    (inside : InStretch Cycle.rst wave a t) : Press wave t ↔ t = a + pressDelay := by
  obtain ⟨k, rfl⟩ := Nat.exists_eq_add_of_le inside.1
  have registers := coreAt_since wave (a + k + 1)
  rw [since_stretch begins k inside] at registers
  rw [Press, registers.pressed_iff]
  omega

theorem no_press_at_rst {wave : Nat → Cycle} {t : Nat} (rst : (wave t).rst = true) :
    ¬ Press wave t := by
  have held : (coreAt wave (t + 1)).por.porActive = true := by
    rw [coreAt, stateAt_succ]
    exact (since_rst _ rst).por
  rw [Press, pressed, State.debugReset, held]
  simp

/-- For every waveform of `rst` and whatever the other inputs do: a maximal stretch of
edges with `rst` low has exactly one press, `pressDelay` edges after its first, if it lasts
that long, and none if it does not; no edge with `rst` high has one. -/
theorem one_press_per_reset (wave : Nat → Cycle) :
    (∀ a, Begins Cycle.rst wave a →
      (InStretch Cycle.rst wave a (a + pressDelay) → Press wave (a + pressDelay) ∧
        ∃! t, InStretch Cycle.rst wave a t ∧ Press wave t) ∧
      (¬ InStretch Cycle.rst wave a (a + pressDelay) →
        ∀ t, InStretch Cycle.rst wave a t → ¬ Press wave t)) ∧
    ∀ t, (wave t).rst = true → ¬ Press wave t := by
  constructor
  · intro a begins
    constructor
    · intro lasts
      have comes := (press_in_stretch begins lasts).mpr rfl
      refine ⟨comes, a + pressDelay, ⟨lasts, comes⟩, ?_⟩
      intro t other
      exact (press_in_stretch begins other.1).mp other.2
    · intro short t inside comes
      have place := (press_in_stretch begins inside).mp comes
      exact short (place ▸ inside)
  · intro t rst
    exact no_press_at_rst rst

end Remote8008.Guarantees.AutoStart
