import Remote8008.Lib.FlopChain
import Remote8008.Source.B8008Core
import Remote8008.Guarantees.StallHysteresis

/-!
# Backpressure across the clock domains

soc/b8008_integration.py:68-83 between soc/console_bridge.py:163-176 and
src/b8008_net_core.vhdl:381. The CPU sees `stall` through two flip-flops of its own clock,
so in a stretch in which `stall` is constant at most two of its clocks go the other way.
The hysteresis makes a stall last at least 63 clocks of the bridge, and with a bound on
how many of those can pass between two clocks of the CPU no stall is missed.
-/

namespace Remote8008.Guarantees.StallCrossing
open Lib.Machine Lib.FlopChain Source.B8008Core StallHysteresis

variable {rxDepth txDepth : Nat}

def isB8008 : Event → Bool
  | .b8008 _ => true
  | .sys _ => false

/-- The cycles of the bridge in a run. -/
def sysCycles (events : List Event) : List Source.ConsoleBridge.Cycle :=
  events.filterMap fun
    | .sys c => some c
    | .b8008 _ => none

/-- The flip-flops of the crossing, as a chain. -/
def flops (s : State rxDepth txDepth) : List Bool := [s.multiReg.first, s.multiReg.second]

theorem chained :
    Chained State.step isB8008 (fun s : State rxDepth txDepth => s.console.stall) flops where
  law s e := by cases e <;> rfl

theorem console_run (s : State rxDepth txDepth) (events : List Event) :
    (run State.step s events).console =
      run Source.ConsoleBridge.State.step s.console (sysCycles events) := by
  induction events generalizing s with
  | nil => rfl
  | cons e rest ih =>
    cases e with
    | sys c => exact ih _
    | b8008 c => exact ih _

/-! ## Clocks of the CPU -/

/-- The CPU advances at this edge. -/
def executed (s : State rxDepth txDepth) : Event → List Event
  | .b8008 c => if Source.NetCore.State.runEnable (s.wired c) then [.b8008 c] else []
  | .sys _ => []

/-- Backpressure freezes the CPU at this edge. -/
def frozen (s : State rxDepth txDepth) : Event → List Event
  | .b8008 c => if s.stallB then [.b8008 c] else []
  | .sys _ => []

theorem executed_le_stale (s : State rxDepth txDepth) (e : Event) :
    (executed s e).length ≤ (stale isB8008 flops true s e).length := by
  cases e with
  | sys c => exact Nat.zero_le _
  | b8008 c =>
    by_cases runs : Source.NetCore.State.runEnable (s.wired c) = true
    · have open' : s.multiReg.second = false := by
        have both : c.dbgRunEnable = true ∧ s.multiReg.second = false := by
          simpa [Source.NetCore.State.runEnable, State.wired, State.stallB] using runs
        exact both.2
      simp [executed, runs, stale, isB8008, flops, open']
    · simp [executed, runs]

theorem frozen_le_stale (s : State rxDepth txDepth) (e : Event) :
    (frozen s e).length ≤ (stale isB8008 flops false s e).length := by
  cases e with
  | sys c => exact Nat.zero_le _
  | b8008 c =>
    cases held : s.multiReg.second with
    | true => simp [frozen, State.stallB, held, stale, isB8008, flops]
    | false => simp [frozen, State.stallB, held]

/-- `stall` shows `v` in every state the stretch leaves. -/
def Shows (v : Bool) : State rxDepth txDepth → List Event → Prop :=
  Stepwise State.step fun s _ => s.console.stall = v

instance (v : Bool) (s : State rxDepth txDepth) (stretch : List Event) :
    Decidable (Shows v s stretch) := decidableStepwise _ _ _ _

theorem executed_le_two {s : State rxDepth txDepth} {stretch : List Event}
    (stalled : Shows true s stretch) : (outputs State.step executed s stretch).length ≤ 2 :=
  Nat.le_trans (outputs_length_le (fun s e _ => executed_le_stale s e) stalled)
    (chained.stale_le stalled (by simp [flops]))

theorem frozen_le_two {s : State rxDepth txDepth} {stretch : List Event}
    (calm : Shows false s stretch) : (outputs State.step frozen s stretch).length ≤ 2 :=
  Nat.le_trans (outputs_length_le (fun s e _ => frozen_le_stale s e) calm)
    (chained.stale_le calm (by simp [flops]))

/-! ## Whole stalls -/

/-- A stall from the edge that raises it to the edge that drops it. -/
structure Episode (s : State rxDepth txDepth) (rise : Event) (during : List Event) (fall : Event) :
    Prop where
  calm : s.console.stall = false
  stalled : Shows true (s.step rise) (during ++ [fall])
  ended : ((run State.step (s.step rise) during).step fall).console.stall = false

/-- Only an edge of the bridge's own clock moves `stall`. -/
theorem sys_of_change {s : State rxDepth txDepth} {e : Event}
    (changed : (s.step e).console.stall ≠ s.console.stall) : ∃ c, e = .sys c := by
  cases e with
  | sys c => exact ⟨c, rfl⟩
  | b8008 c => exact absurd rfl changed

theorem Shows.split {v : Bool} {s : State rxDepth txDepth} {first : List Event} {e : Event}
    (shows' : Shows v s (first ++ [e])) :
    Shows v s first ∧ (run State.step s first).console.stall = v := by
  induction first generalizing s with
  | nil => exact ⟨trivial, shows'.1⟩
  | cons d rest ih =>
    obtain ⟨early, last⟩ := ih shows'.2
    exact ⟨⟨shows'.1, early⟩, last⟩

theorem outputs_consumed_le (s : Source.ConsoleBridge.State rxDepth txDepth)
    (cycles : List Source.ConsoleBridge.Cycle) :
    (outputs Source.ConsoleBridge.State.step RxStream.consumed s cycles).length ≤
      cycles.length := by
  induction cycles generalizing s with
  | nil => exact Nat.le_refl 0
  | cons c rest ih =>
    have one := consumed_length_le s c
    have more := ih (s.step c)
    rw [outputs_cons, List.length_append, List.length_cons]
    omega

/-- The hysteresis in clocks: a stall lasts at least 63 of them. -/
theorem Episode.long {s : State rxDepth txDepth} {rise fall : Event} {during : List Event}
    (episode : Episode s rise during fall)
    (running : ∀ c ∈ sysCycles (rise :: during ++ [fall]), c.rst = false) :
    63 ≤ (sysCycles during).length := by
  obtain ⟨stalled, still⟩ := episode.stalled.split
  have raised : (s.step rise).console.stall = true := by
    cases during with
    | nil => exact still
    | cons e rest => exact stalled.1
  obtain ⟨c, rfl⟩ := sys_of_change (s := s) (e := rise) (by rw [raised, episode.calm]; decide)
  obtain ⟨d, rfl⟩ := sys_of_change (s := run State.step (s.step (.sys c)) during) (e := fall)
    (by rw [still, episode.ended]; decide)
  have top : Source.ConsoleBridge.hwm rxDepth ≤ s.console.rxFifo.level :=
    rise_level episode.calm raised
  have low := fall_level (running d (by simp [sysCycles])) still episode.ended
  rw [console_run] at low
  have bottom : ((run Source.ConsoleBridge.State.step (s.console.step c)
      (sysCycles during)).rxFifo.level : Int) ≤ Source.ConsoleBridge.lwm rxDepth := low
  have drop := run_level_drop s.console (c :: sysCycles during) (fun e member => running e (by
    rcases List.mem_cons.mp member with rfl | later
    · simp [sysCycles]
    · simp only [sysCycles, List.cons_append, List.filterMap_cons, List.filterMap_append,
        List.mem_cons, List.mem_append]
      exact .inr (.inl later)))
  have pops := outputs_consumed_le s.console (c :: sysCycles during)
  have gap := marks rxDepth
  rw [List.length_cons] at pops
  rw [run_cons] at drop
  omega

theorem sysCycles_length (events : List Event) :
    (sysCycles events).length = events.countP fun e => !isB8008 e := by
  induction events with
  | nil => rfl
  | cons e rest ih =>
    cases e with
    | sys c => simpa [sysCycles, isB8008] using ih
    | b8008 c => simpa [sysCycles, isB8008] using ih

/-- An edge of the CPU that is not frozen is a stale one. -/
theorem b8008_edges_le (s : State rxDepth txDepth) (events : List Event) :
    events.countP isB8008 ≤ (outputs State.step frozen s events).length +
      (outputs State.step (stale isB8008 flops true) s events).length := by
  induction events generalizing s with
  | nil => exact Nat.le_refl 0
  | cons e rest ih =>
    have more := ih (s.step e)
    have here : (if isB8008 e then 1 else 0) ≤
        (frozen s e).length + (stale isB8008 flops true s e).length := by
      cases e with
      | sys c => exact Nat.zero_le _
      | b8008 c =>
        cases held : s.multiReg.second with
        | true => simp [isB8008, frozen, State.stallB, held]
        | false => simp [isB8008, frozen, State.stallB, held, stale, flops]
    rw [List.countP_cons, outputs_cons, outputs_cons, List.length_append, List.length_append]
    omega

/-- For every interleaving of the two clocks, from every state: the CPU advances at no more
than two of its clocks in a stretch in which `stall` is up, and is held at no more than two
in a stretch in which it is down. A whole stall, without a reset of the bridge and with at
most `pace` of its clocks between two of the CPU's, holds the CPU at `63 / pace - 3` clocks
or more: with one clock of 25 MHz to three of 75 MHz these are 18. -/
theorem stall_freezes_core (s : State rxDepth txDepth) :
    (∀ stretch, Shows true s stretch → (outputs State.step executed s stretch).length ≤ 2) ∧
    (∀ stretch, Shows false s stretch → (outputs State.step frozen s stretch).length ≤ 2) ∧
    ∀ pace rise during fall, Episode s rise during fall →
      (∀ c ∈ sysCycles (rise :: during ++ [fall]), c.rst = false) →
      Paced isB8008 pace 0 during →
      63 ≤ pace * ((outputs State.step frozen (s.step rise) during).length + 3) := by
  refine ⟨fun stretch => executed_le_two, fun stretch => frozen_le_two, ?_⟩
  intro pace rise during fall episode running paced
  have long := episode.long running
  rw [sysCycles_length] at long
  have filled := paced.count (Nat.zero_le pace)
  have edges := b8008_edges_le (s.step rise) during
  have late := chained.stale_le episode.stalled.split.1 (by simp [flops])
  have late' : (outputs State.step (stale isB8008 flops true) (s.step rise) during).length ≤ 2 :=
    late
  calc 63 ≤ 0 + during.countP (fun e => !isB8008 e) := by omega
    _ ≤ pace * (during.countP isB8008 + 1) := filled
    _ ≤ pace * ((outputs State.step frozen (s.step rise) during).length + 3) :=
      Nat.mul_le_mul_left pace (by omega)

/-- Three pops, then a clock of the CPU. -/
def round : List Event :=
  [.sys pop, .sys pop, .sys pop,
    .b8008 ⟨false, false, false, false, false, false, false, true, false⟩]

/-- At depth 128 a full stall is over after 21 rounds and holds the CPU in 19 of them. -/
theorem stall_freezes_core_rounds :
    let s : State 128 256 := run State.step powerOn (fill.map .sys)
    let during := (List.replicate 21 round).flatten
    Episode s (.sys pop) during (.sys pop) ∧
    (outputs State.step executed (s.step (.sys pop)) during).length ≤ 2 ∧
    (outputs State.step frozen (s.step (.sys pop)) during).length = 19 ∧
    63 ≤ 3 * ((outputs State.step frozen (s.step (.sys pop)) during).length + 3) := by
  intro s during
  have episode : Episode s (.sys pop) during (.sys pop) :=
    ⟨by decide +kernel, by decide +kernel, by decide +kernel⟩
  have running : ((sysCycles (.sys pop :: during ++ [.sys pop])).all fun c => !c.rst) = true := by
    decide +kernel
  have paced : Paced isB8008 3 0 during := by decide +kernel
  refine ⟨episode, ?_, by decide +kernel, ?_⟩
  · exact (stall_freezes_core (s.step (.sys pop))).1 during episode.stalled.split.1
  · exact (stall_freezes_core s).2.2 3 _ during _ episode
      (fun c member => by simpa using List.all_eq_true.mp running c member) paced

end Remote8008.Guarantees.StallCrossing
