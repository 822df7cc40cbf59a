import Remote8008.Lib.Latch
import Remote8008.Source.ConsoleBridge

/-!
# The sticky error bits over whole runs

soc/console_bridge.py:178-211. The three events are combinational and follow FIFOs that
a reset empties, while the bits are `reset_less`: each is a latch of its own event,
cleared only by a `console_err_clear` of that bit in a cycle without the event.
-/

namespace Remote8008.Guarantees.StickyErrors
open Lib.Machine Lib.Latch Source.ConsoleBridge

variable {rxDepth txDepth : Nat}

theorem errWord_testBit (sticky : Fin 3 → Bool) (bit : Fin 3) :
    (errWord sticky).testBit bit.val = sticky bit := by
  have fields : ∀ a b c : Bool, (a.toNat + 2 * b.toNat + 4 * c.toNat).testBit 0 = a ∧
      (a.toNat + 2 * b.toNat + 4 * c.toNat).testBit 1 = b ∧
      (a.toNat + 2 * b.toNat + 4 * c.toNat).testBit 2 = c := by decide
  obtain ⟨first, second, third⟩ := fields (sticky 0) (sticky 1) (sticky 2)
  match bit with
  | 0 => exact first
  | 1 => exact second
  | 2 => exact third

theorem step_sticky (s : State rxDepth txDepth) (c : Cycle) (bit : Fin 3) :
    (s.step c).sticky bit =
      (s.errSource c bit || (s.sticky bit && !State.clears c bit)) := by
  simp only [State.step, State.nextSticky]
  cases s.errSource c bit <;> cases State.clears c bit <;> simp

/-- A bit that is on goes off only in a cycle that clears it without its event. -/
theorem sticky_stays {s : State rxDepth txDepth} {bit : Fin 3} (on : s.sticky bit = true)
    {c : Cycle} (kept : State.clears c bit = true → s.errSource c bit = true) :
    (s.step c).sticky bit = true := by
  rw [step_sticky, on]
  by_cases cleared : State.clears c bit = true
  · simp [kept cleared]
  · simp [cleared]

variable (rxDepth txDepth) in
/-- In every run from power-on, whatever the resets, reads, pops, writes and clears: a
bit of `console_err` reads 1 exactly when some cycle raised its event and no later
cycle cleared it without raising it again, and nothing else turns it off. -/
theorem console_err_over_runs (cycles : List Cycle) (bit : Fin 3) :
    ((errWord (after cycles : State rxDepth txDepth).sticky).testBit bit.val = true ↔
      ∃ before c later, cycles = before ++ c :: later ∧
        (after before : State rxDepth txDepth).errSource c bit = true ∧
        ∀ between d rest, later = between ++ d :: rest → State.clears d bit = true →
          (after (before ++ c :: between) : State rxDepth txDepth).errSource d bit = true) ∧
    ∀ c, (errWord (after cycles : State rxDepth txDepth).sticky).testBit bit.val = true →
      (State.clears c bit = true →
        (after cycles : State rxDepth txDepth).errSource c bit = true) →
      (errWord (after (cycles ++ [c]) : State rxDepth txDepth).sticky).testBit bit.val = true := by
  constructor
  · rw [errWord_testBit]
    have latched := run_latched (fun s : State rxDepth txDepth => s.sticky bit)
      (fun s c => step_sticky s c bit) cycles powerOn
    rw [or_iff_right (by simp [powerOn])] at latched
    simpa only [after, Held, ← run_append, List.append_assoc, List.singleton_append]
      using latched
  · intro c on kept
    rw [errWord_testBit] at on ⊢
    rw [after_concat]
    exact sticky_stays on kept

end Remote8008.Guarantees.StickyErrors
