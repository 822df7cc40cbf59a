import Remote8008.Source.ConsoleBridge

/-!
# The console RX side is a faithful byte queue

soc/console_bridge.py:42-107,183-189 against an abstract queue: what the pops
consume, followed by what the two FIFO stages still hold, is what was presented
while `sink.ready` was 1. The queue is the concatenation of the output register
and the inner FIFO, so the latency bubble on the empty edge is part of the proof:
there a word is already counted while `valid` is still 0 and a pop takes nothing.
-/

namespace Remote8008.Guarantees.RxStream
open Lib.BufferedFifo Lib.Machine Source.ConsoleBridge

variable {rxDepth txDepth : Nat}

/-- A presented byte that finds `sink.ready` at 1. -/
def accepted (s : State rxDepth txDepth) (c : Cycle) : List UInt8 :=
  if s.rxSinkReady then c.phySource.toList else []

/-- The byte `console_rx.data` shows in a cycle that pops against `valid`. -/
def consumed (s : State rxDepth txDepth) (c : Cycle) : List UInt8 :=
  if c.consoleRxPop && s.consoleRx.valid then [s.consoleRx.data] else []

theorem accepted_eq_stored (s : State rxDepth txDepth) (c : Cycle) :
    accepted s c = s.rxFifo.stored c.phySource := rfl

theorem consumed_eq_taken (s : State rxDepth txDepth) (c : Cycle) :
    consumed s c = s.rxFifo.taken (s.rxSourceReady c) := by
  cases hout : s.rxFifo.out <;> cases hpop : c.consoleRxPop <;>
    simp [consumed, Fifo.taken, State.rxSourceReady, State.consoleRx, Fifo.readable, hout, hpop]

/-- One edge conserves the queue. -/
theorem step_balance (s : State rxDepth txDepth) (c : Cycle) (running : c.rst = false) :
    s.rxFifo.held ++ accepted s c = consumed s c ++ (s.step c).rxFifo.held := by
  rw [accepted_eq_stored, consumed_eq_taken]
  simpa [State.step, running] using s.rxFifo.step_conserves c.phySource (s.rxSourceReady c)

theorem held_of_valid (s : State rxDepth txDepth) (valid : s.consoleRx.valid = true) :
    s.rxFifo.held = s.consoleRx.data :: s.rxFifo.inner := by
  cases hout : s.rxFifo.out with
  | none => simp [State.consoleRx, hout] at valid
  | some head => simp [State.consoleRx, Fifo.held, hout]

/-- What a single cycle does to the queue, in each of its cases. -/
structure CycleLaw (s : State rxDepth txDepth) (c : Cycle) : Prop where
  pop_valid : c.consoleRxPop = true → s.consoleRx.valid = true →
    ∃ rest, s.rxFifo.held = s.consoleRx.data :: rest ∧
      (s.step c).rxFifo.held = rest ++ accepted s c
  pop_invalid : c.consoleRxPop = true → s.consoleRx.valid = false →
    (s.step c).rxFifo.held = s.rxFifo.held ++ accepted s c ∧ s.errRxPopWhenEmpty c = true
  no_pop : c.consoleRxPop = false →
    (s.step c).rxFifo.held = s.rxFifo.held ++ accepted s c
  pop_error_only_when_empty : s.errRxPopWhenEmpty c = true →
    c.consoleRxPop = true ∧ s.consoleRx.valid = false
  not_stored : ∀ byte, c.phySource = some byte → accepted s c ≠ [byte] →
    s.errRxOverflow c = true

theorem cycle_law (s : State rxDepth txDepth) (c : Cycle) (running : c.rst = false) :
    CycleLaw s c := by
  have balance := step_balance s c running
  refine ⟨?_, ?_, ?_, ?_, ?_⟩
  · intro pop valid
    have hheld := held_of_valid s valid
    refine ⟨_, hheld, ?_⟩
    have hconsumed : consumed s c = [s.consoleRx.data] := by simp [consumed, pop, valid]
    rw [hheld, hconsumed] at balance
    simpa using balance.symm
  · intro pop invalid
    have hconsumed : consumed s c = [] := by simp [consumed, invalid]
    rw [hconsumed, List.nil_append] at balance
    refine ⟨balance.symm, ?_⟩
    rw [consoleRx_valid] at invalid
    simp [State.errRxPopWhenEmpty, pop, invalid]
  · intro quiet
    have hconsumed : consumed s c = [] := by simp [consumed, quiet]
    rw [hconsumed, List.nil_append] at balance
    exact balance.symm
  · intro raised
    simpa [State.errRxPopWhenEmpty, consoleRx_valid] using raised
  · intro byte presented lost
    have full : s.rxSinkReady = false := by
      by_contra ready
      exact lost (by simp [accepted, presented, Bool.not_eq_false _ ▸ ready])
    simp [State.errRxOverflow, presented, full]

/-- Two runs that differ only in the cycles in which `console_rx` is read. -/
def SameUpToReads : List Cycle → List Cycle → Prop :=
  List.Forall₂ fun c d => d = { c with consoleRxRead := d.consoleRxRead }

theorem step_ignores_reads (s : State rxDepth txDepth) (c : Cycle) (read : Bool) :
    s.step { c with consoleRxRead := read } = s.step c := rfl

theorem run_ignores_reads (cycles other : List Cycle) (same : SameUpToReads cycles other)
    (s : State rxDepth txDepth) : run State.step s other = run State.step s cycles := by
  induction same generalizing s with
  | nil => rfl
  | @cons c d _ _ head _ ih =>
    rw [run_cons, run_cons, head, step_ignores_reads]
    exact ih _

variable (rxDepth txDepth) in
/-- Stream fidelity and accounting of the RX side over every run without a
further reset: conservation of the whole stream, the law of each cycle of the
run in the state that cycle meets, and the absence of any effect of reads. -/
theorem rx_stream_faithful (cycles : List Cycle) (noReset : ∀ c ∈ cycles, c.rst = false) :
    outputs State.step consumed (powerOn : State rxDepth txDepth) cycles ++
        (after cycles : State rxDepth txDepth).rxFifo.held =
      outputs State.step accepted (powerOn : State rxDepth txDepth) cycles ∧
    (∀ before c later, cycles = before ++ c :: later →
      CycleLaw (after before : State rxDepth txDepth) c) ∧
    (∀ other, SameUpToReads cycles other →
      (after other : State rxDepth txDepth) = after cycles) := by
  refine ⟨?_, ?_, ?_⟩
  · have conserved := run_conserves (fun s : State rxDepth txDepth => s.rxFifo.held)
      (fun _ => True) (fun _ _ _ _ => trivial)
      (fun s c running _ => step_balance s c running) cycles noReset powerOn trivial
    exact conserved.symm
  · intro before c later split
    exact cycle_law _ c (noReset c (by simp [split]))
  · intro other same
    exact run_ignores_reads cycles other same powerOn

/-- A byte that arrives while the queue is popped against the empty register,
then popped twice: the second pop raises the error and nothing is lost. -/
theorem rx_stream_faithful_bubble :
    let quiet : Cycle := ⟨false, none, false, false, false, none, none⟩
    let cycles := [{ quiet with phySource := some 0x41, consoleRxPop := true }, quiet,
      { quiet with consoleRxPop := true }, { quiet with consoleRxPop := true }]
    outputs State.step consumed (powerOn : State 128 256) cycles ++
        (after cycles : State 128 256).rxFifo.held = [0x41] := by
  intro quiet cycles
  exact (rx_stream_faithful 128 256 cycles (by decide)).1

end Remote8008.Guarantees.RxStream
