import Remote8008.Source.ConsoleBridge

/-!
# Console TX accounting

soc/console_bridge.py:109-161. `full` is decoded from the level of both stages
while the FIFO's own readiness looks only at the inner stage. The invariant
`level ≤ tx_depth` makes the gate sound: below `tx_depth` the inner FIFO has
room, and at `tx_depth` the gate closes before the extra output word is used.
-/

namespace Remote8008.Guarantees.TxAccounting
open Lib.BufferedFifo Lib.Machine Source.ConsoleBridge

variable {rxDepth txDepth : Nat}

/-- The low byte of a write issued while `console_tx.full` is 0. -/
def written (s : State rxDepth txDepth) (c : Cycle) : List UInt8 :=
  if s.consoleTx.full then [] else (c.consoleTxData.map UInt32.toUInt8).toList

/-- The byte the PHY takes in this cycle. -/
def handed (s : State rxDepth txDepth) (c : Cycle) : List UInt8 :=
  if c.phySinkReady then s.txFifo.out.toList else []

def LevelBounded (s : State rxDepth txDepth) : Prop := s.txFifo.level ≤ txDepth

/-- The gate is sound: a write it lets through always meets a writable FIFO. -/
theorem writable_of_not_full (s : State rxDepth txDepth) (bounded : LevelBounded s)
    (room : s.consoleTx.full = false) : s.txFifo.writable = true := by
  apply s.txFifo.writable_of_level_lt
  have differs : s.txFifo.level ≠ txDepth := by simpa [State.consoleTx, State.txFull] using room
  unfold LevelBounded at bounded
  omega

theorem stored_eq_written (s : State rxDepth txDepth) (c : Cycle) (bounded : LevelBounded s) :
    s.txFifo.stored (s.txSink c) = written s c := by
  cases hfull : s.txFull with
  | true => simp [State.txSink, written, State.consoleTx, hfull, Fifo.stored]
  | false =>
    have room := writable_of_not_full s bounded (by simpa [State.consoleTx] using hfull)
    simp [s.txFifo.stored_of_writable _ room, State.txSink, written, State.consoleTx, hfull]

theorem step_balance (s : State rxDepth txDepth) (c : Cycle) (running : c.rst = false)
    (bounded : LevelBounded s) :
    s.txFifo.held ++ written s c = handed s c ++ (s.step c).txFifo.held := by
  have edge : (s.step c).txFifo = s.txFifo.step (s.txSink c) c.phySinkReady := by
    simp [State.step, running]
  rw [← stored_eq_written s c bounded, edge]
  exact s.txFifo.step_conserves (s.txSink c) c.phySinkReady

/-- A reset empties the FIFO, so the bound needs no assumption on `rst`. -/
theorem step_levelBounded (s : State rxDepth txDepth) (c : Cycle) (bounded : LevelBounded s) :
    LevelBounded (s.step c) := by
  unfold LevelBounded at *
  cases hrst : c.rst with
  | true => simp [State.step, hrst]
  | false =>
    have grows := s.txFifo.step_level_le (s.txSink c) c.phySinkReady
    simp only [State.step, hrst, Bool.false_eq_true, ↓reduceIte]
    cases hfull : s.txFull with
    | true =>
      have closed : s.txSink c = none := by simp [State.txSink, hfull]
      rw [closed] at grows ⊢
      exact Nat.le_trans grows (by simpa using bounded)
    | false =>
      have differs : s.txFifo.level ≠ txDepth := by simpa [State.txFull] using hfull
      have one : (s.txSink c).toList.length ≤ 1 := by cases s.txSink c <;> simp
      omega

theorem after_levelBounded (cycles : List Cycle) :
    LevelBounded (after cycles : State rxDepth txDepth) :=
  run_invariant LevelBounded (fun _ => True) (fun s c _ bounded => step_levelBounded s c bounded)
    cycles (fun _ _ => trivial) powerOn (Nat.zero_le _)

/-- What a single cycle reports and does on the transmit side. -/
structure CycleLaw (s : State rxDepth txDepth) (c : Cycle) : Prop where
  level_le : s.txFifo.level ≤ txDepth
  level_field : txDepth < 2 ^ 9 → s.consoleTx.level = s.txFifo.level
  full_iff : s.consoleTx.full = true ↔ s.txFifo.level = txDepth
  stored : ∀ word, c.consoleTxData = some word → s.consoleTx.full = false →
    s.txFifo.writable = true ∧ s.errTxWriteWhenFull c = false ∧
      s.txFifo.held ++ [word.toUInt8] = handed s c ++ (s.step c).txFifo.held
  rejected : ∀ word, c.consoleTxData = some word → s.consoleTx.full = true →
    s.errTxWriteWhenFull c = true ∧ s.txFifo.held = handed s c ++ (s.step c).txFifo.held

theorem cycle_law (s : State rxDepth txDepth) (c : Cycle) (running : c.rst = false)
    (bounded : LevelBounded s) : CycleLaw s c := by
  have balance := step_balance s c running bounded
  refine ⟨bounded, ?_, ?_, ?_, ?_⟩
  · intro narrow
    exact Nat.mod_eq_of_lt (Nat.lt_of_le_of_lt bounded narrow)
  · simp [State.consoleTx, State.txFull]
  · intro word issued room
    have gate : s.txFull = false := room
    rw [written, room, issued] at balance
    exact ⟨writable_of_not_full s bounded room, by simp [State.errTxWriteWhenFull, gate],
      by simpa using balance⟩
  · intro word issued full
    have gate : s.txFull = true := full
    rw [written, full] at balance
    exact ⟨by simp [State.errTxWriteWhenFull, issued, gate], by simpa using balance⟩

variable (rxDepth txDepth) in
/-- TX accounting over every run without a further reset: the stream the PHY
receives, followed by the queue, is the stream of writes issued while not full,
and every cycle of the run obeys its law. -/
theorem tx_accounting (cycles : List Cycle) (noReset : ∀ c ∈ cycles, c.rst = false) :
    outputs State.step handed (powerOn : State rxDepth txDepth) cycles ++
        (after cycles : State rxDepth txDepth).txFifo.held =
      outputs State.step written (powerOn : State rxDepth txDepth) cycles ∧
    (∀ before c later, cycles = before ++ c :: later →
      CycleLaw (after before : State rxDepth txDepth) c) := by
  refine ⟨?_, ?_⟩
  · have conserved := run_conserves (fun s : State rxDepth txDepth => s.txFifo.held)
      LevelBounded (fun s c _ bounded => step_levelBounded s c bounded)
      (fun s c running bounded => step_balance s c running bounded) cycles noReset powerOn
      (Nat.zero_le _)
    exact conserved.symm
  · intro before c later split
    exact cycle_law _ c (noReset c (by simp [split])) (after_levelBounded before)

/-- Three back-to-back writes into a FIFO of two words with a silent PHY: the
third meets `full` although the inner FIFO holds a single word. -/
theorem tx_accounting_third_write :
    let write (w : UInt32) : Cycle := ⟨false, none, false, false, false, some w, none⟩
    let cycles := [write 0x141, write 0x42, write 0x43]
    outputs State.step handed (powerOn : State 128 2) cycles ++
        (after cycles : State 128 2).txFifo.held = [0x41, 0x42] ∧
      (after [write 0x141, write 0x42] : State 128 2).errTxWriteWhenFull (write 0x43) = true := by
  intro write cycles
  have law := tx_accounting 128 2 cycles (by decide)
  exact ⟨law.1, ((law.2 [write 0x141, write 0x42] (write 0x43) [] rfl).rejected 0x43 rfl rfl).1⟩

end Remote8008.Guarantees.TxAccounting
