import Remote8008.Source.Crg

/-!
# The console leaves reset before the core

soc/versa_soc.py:444-497 (S-RST-6). The gate of `cd_b8008` contains the reset of `cd_sys`,
so its synchronizer shifts only while `cd_sys` is out of reset, and it takes two edges of
its own clock to let go.
-/

namespace Remote8008.Guarantees.ResetOrder
open Lib.Machine Lib.ResetSync Source.Crg

/-- The generator after the events, from power-up with the inputs at the given levels. -/
def after (locked reset : Bool) (events : List Event) : State :=
  run State.step (powerOn locked reset) events

theorem b8008_follows :
    Follows State.step State.b8008RstGate Event.b8008Edge State.b8008 where
  law := by
    rintro s (⟨locked, reset⟩ | ⟨sys, b8008⟩)
    · rfl
    · rfl

/-- Nothing after a step escapes a high gate. -/
theorem step_settled (s : State) (event : Event) (high : (s.step event).sysRstGate = true) :
    (s.step event).sys = .preset ∧ (s.step event).b8008 = .preset := by
  obtain ⟨locked, reset⟩ | ⟨sys, b8008⟩ := event
  all_goals
    have gate := high
    simp only [State.step, State.settle, State.sysRstGate] at gate
    simp [State.step, State.settle, State.sysRstGate, State.b8008RstGate, gate]

theorem after_settled (locked reset : Bool) (events : List Event)
    (high : (after locked reset events).sysRstGate = true) :
    (after locked reset events).sys.rst = true ∧ (after locked reset events).b8008.rst = true := by
  rcases List.eq_nil_or_concat events with rfl | ⟨earlier, event, rfl⟩
  · exact ⟨rfl, rfl⟩
  · rw [List.concat_eq_append, after, run_concat] at high ⊢
    obtain ⟨sys, b8008⟩ := step_settled _ event high
    rw [sys, b8008]
    exact ⟨rfl, rfl⟩

theorem low_iff (s : State) :
    s.b8008RstGate = false ↔ s.locked = true ∧ s.reset = false ∧ s.sys.rst = false := by
  simp [State.b8008RstGate, and_assoc]

/-- In every reachable state the core is out of reset only if the console is. -/
theorem sys_released (locked reset : Bool) (events : List Event)
    (released : (after locked reset events).b8008.rst = false) :
    (after locked reset events).sys.rst = false := by
  rcases List.eq_nil_or_concat events with rfl | ⟨earlier, event, rfl⟩
  · simp [after, powerOn, Sync.preset] at released
  · rw [List.concat_eq_append, after, run_concat] at released ⊢
    exact ((low_iff _).mp (b8008_follows.low_after (.inr released))).2.2

/-- `cd_sys` ticks between any two consecutive edges of `cd_b8008`. -/
def SysFaster (events : List Event) : Prop :=
  ∀ earlier first mid last later, events = earlier ++ first :: mid ++ last :: later →
    first.b8008Edge = true → last.b8008Edge = true → (∀ event ∈ mid, event.b8008Edge = false) →
    ∃ event ∈ mid, event.sysEdge = true

/-- For every interleaving of the edges with changes of `pll.locked` and `reset`: both
domains start in reset, a high gate holds both there, the core is out of reset only when
the console is, and it is released on an edge whose predecessor already lay in the same
stretch of `cd_sys` out of reset, so behind an edge of `cd_sys` out of reset when that is
the faster clock. -/
theorem console_leaves_reset_first (locked reset : Bool) (events : List Event) :
    ((after locked reset []).sys.rst = true ∧ (after locked reset []).b8008.rst = true) ∧
    ((after locked reset events).b8008.rst = false →
      (after locked reset events).sys.rst = false) ∧
    ((after locked reset events).locked = false ∨ (after locked reset events).reset = true →
      (after locked reset events).sys.rst = true ∧
      (after locked reset events).b8008.rst = true) ∧
    ∀ last, (after locked reset events).b8008.rst = true →
      (after locked reset (events ++ [last])).b8008.rst = false →
      last.b8008Edge = true ∧
      ∃ earlier first mid, events = earlier ++ first :: mid ∧ first.b8008Edge = true ∧
        (∀ n, earlier.length ≤ n → n ≤ events.length + 1 →
          (after locked reset ((events ++ [last]).take n)).locked = true ∧
          (after locked reset ((events ++ [last]).take n)).reset = false ∧
          (after locked reset ((events ++ [last]).take n)).sys.rst = false) ∧
        (SysFaster (events ++ [last]) → ∃ between tick rest, mid = between ++ tick :: rest ∧
          tick.sysEdge = true ∧
          (after locked reset (earlier ++ first :: between)).sys.rst = false) := by
  refine ⟨⟨rfl, rfl⟩, sys_released locked reset events, fun asserted => ?_, ?_⟩
  · apply after_settled
    rcases asserted with unlocked | held
    · simp [State.sysRstGate, unlocked]
    · simp [State.sysRstGate, held]
  · intro last was now
    obtain ⟨edge, earlier, first, mid, split, loads, only, low⟩ :=
      b8008_follows.release rfl events last was now
    have stretch : ∀ n, earlier.length ≤ n → n ≤ events.length + 1 →
        (after locked reset ((events ++ [last]).take n)).locked = true ∧
        (after locked reset ((events ++ [last]).take n)).reset = false ∧
        (after locked reset ((events ++ [last]).take n)).sys.rst = false :=
      fun n since within => (low_iff _).mp (low n since (by simpa using within))
    refine ⟨edge, earlier, first, mid, split, loads, stretch, fun faster => ?_⟩
    obtain ⟨tick, member, ticks⟩ :=
      faster earlier first mid last [] (by simp [split]) loads edge only
    obtain ⟨between, rest, rfl⟩ := List.append_of_mem member
    refine ⟨between, tick, rest, rfl, ticks, ?_⟩
    have parts : events ++ [last] =
        (earlier ++ first :: between) ++ (tick :: rest ++ [last]) := by simp [split]
    have inside : (earlier ++ first :: between).length ≤ events.length + 1 := by
      have whole := congrArg List.length parts
      simp only [List.length_append, List.length_cons] at whole ⊢
      omega
    have reached := (stretch _ (by simp) inside).2.2
    rwa [parts, List.take_left] at reached

-- the PLL locks, `cd_sys` lets go on its second edge, and the core two of its own edges later
example :
    let events := [.inputs true false, .edges true false, .edges true true, .edges false true,
      .edges true false, .edges false true]
    (after false false events).b8008.rst = false ∧
    (after false false (events.take 5)).b8008.rst = true ∧
    (after false false (events.take 3)).sys.rst = false := by
  decide

end Remote8008.Guarantees.ResetOrder
