import Mathlib.Data.List.Induction
import Remote8008.Guarantees.TxAccounting
import Remote8008.System.ConsoleSession

/-!
# The clocked bridge refines the console queues

soc/console_bridge.py:42-211 against the `Board` of `System.ConsoleSession`. A byte
belongs to the receive queue once it can be read, which is a clock or two after it was
stored; until then it is in transit. One clock edge without reset and without
overflow is a short list of queue operations: the bus strobes, the byte the PHY
takes, and the bytes that become readable.
-/

namespace Remote8008.Guarantees.ConsoleQueue
open Lib.BufferedFifo Lib.Machine Source.ConsoleBridge System.ConsoleSession

variable {rxDepth txDepth : Nat}

inductive Op where
  | clear (mask : Nat)
  | pop
  | push (byte : UInt8)
  | phyTakes
  | arrive (byte : UInt8)

def apply (b : Board rxDepth txDepth) : Op → Board rxDepth txDepth
  | .clear mask => b.clear mask
  | .pop => b.pop
  | .push byte => b.push byte
  | .phyTakes => b.phyTakes
  | .arrive byte => b.arrive byte

/-- Clears come first because a fault in the same cycle wins over them. -/
def busOps (c : Cycle) : List Op :=
  (c.consoleErrClear.map fun mask => Op.clear mask.toNat).toList ++
  (if c.consoleRxPop then [.pop] else []) ++
  (c.consoleTxData.map fun word => Op.push word.toUInt8).toList

structure Represents (s : State rxDepth txDepth) (b : Board rxDepth txDepth) : Prop where
  rx : b.rx = s.rxFifo.visible
  tx : b.tx = s.txFifo.held
  sticky : b.sticky = s.sticky

theorem Represents.levelBounded {s : State rxDepth txDepth} {b : Board rxDepth txDepth}
    (rel : Represents s b) : TxAccounting.LevelBounded s := by
  unfold TxAccounting.LevelBounded
  rw [s.txFifo.level_eq_held_length, ← rel.tx]
  exact b.fits

theorem Represents.full {s : State rxDepth txDepth} {b : Board rxDepth txDepth}
    (rel : Represents s b) : b.full = s.txFull := by
  simp [Board.full, State.txFull, rel.tx, s.txFifo.level_eq_held_length]

/-- Every register reads the same on both sides. -/
theorem Represents.registers {s : State rxDepth txDepth} {b : Board rxDepth txDepth}
    (rel : Represents s b) :
    b.consoleRx = s.consoleRx ∧ b.consoleTx = s.consoleTx ∧
      errWord b.sticky = errWord s.sticky := by
  refine ⟨?_, ?_, by rw [rel.sticky]⟩
  · cases hout : s.rxFifo.out with
    | none =>
      have unseen : b.rx = [] := by simp [rel.rx, Fifo.visible, Fifo.readable, hout]
      simp [Board.consoleRx, State.consoleRx, unseen, hout]
    | some head =>
      have seen : b.rx = head :: s.rxFifo.inner := by
        simp [rel.rx, Fifo.visible, Fifo.held, Fifo.readable, hout]
      have capped : min (s.rxFifo.inner.length + 1) rxDepth = s.rxLevelCapped := by
        simp only [State.rxLevelCapped, Fifo.level, Fifo.readable, hout, Option.isSome_some,
          Bool.toNat_true]
        split <;> omega
      simp [Board.consoleRx, State.consoleRx, seen, hout, capped]
  · simp [Board.consoleTx, State.consoleTx, rel.full, rel.tx, s.txFifo.level_eq_held_length]

theorem run_arrive (b : Board rxDepth txDepth) (bytes : List UInt8) :
    run apply b (bytes.map .arrive) = { b with rx := b.rx ++ bytes } := by
  induction bytes generalizing b with
  | nil => simp
  | cons byte rest ih => simp [apply, Board.arrive, ih]

@[simp] theorem pop_rx (b : Board rxDepth txDepth) : b.pop.rx = b.rx.tail := by
  cases queued : b.rx <;> simp [Board.pop, Board.raise, queued]

@[simp] theorem pop_tx (b : Board rxDepth txDepth) : b.pop.tx = b.tx := by
  cases queued : b.rx <;> simp [Board.pop, Board.raise, queued]

theorem pop_sticky (b : Board rxDepth txDepth) (bit : Fin 3) :
    b.pop.sticky bit = (decide (b.rx = []) && decide (bit = 2) || b.sticky bit) := by
  cases queued : b.rx with
  | nil =>
    by_cases second : bit = 2
    · simp [Board.pop, Board.raise, queued, second]
    · simp [Board.pop, Board.raise, queued, second]
  | cons head rest => simp [Board.pop, queued]

theorem push_sticky (b : Board rxDepth txDepth) (byte : UInt8) (bit : Fin 3) :
    (b.push byte).sticky bit = (b.full && decide (bit = 1) || b.sticky bit) := by
  cases full : b.full with
  | false => simp [Board.push, full]
  | true =>
    by_cases first : bit = 1
    · simp [Board.push, full, first]
    · simp [Board.push, full, first]

/-- The error sources of a cycle without an overflow, read off the queues. -/
theorem errSource_of_room {s : State rxDepth txDepth} {b : Board rxDepth txDepth}
    (rel : Represents s b) (c : Cycle) (room : s.errRxOverflow c = false) (bit : Fin 3) :
    s.errSource c bit = (c.consoleTxData.isSome && b.full && decide (bit = 1) ||
      c.consoleRxPop && decide (b.rx = []) && decide (bit = 2)) := by
  have full := rel.full
  have empty : decide (b.rx = []) = !s.rxFifo.readable := by
    cases hout : s.rxFifo.out <;>
      simp [rel.rx, Fifo.visible, Fifo.held, Fifo.readable, hout]
  obtain rfl | rfl | rfl : bit = 0 ∨ bit = 1 ∨ bit = 2 := by omega
  · simpa [State.errSource] using room
  · simp [State.errSource, State.errTxWriteWhenFull, full]
  · simp [State.errSource, State.errRxPopWhenEmpty, empty]

/-- What the bus strobes of one cycle do to the queues. -/
theorem busOps_effect {s : State rxDepth txDepth} {b : Board rxDepth txDepth}
    (rel : Represents s b) (c : Cycle) :
    (run apply b (busOps c)).rx = (if c.consoleRxPop then b.rx.tail else b.rx) ∧
    (run apply b (busOps c)).tx = b.tx ++ TxAccounting.written s c ∧
    (s.errRxOverflow c = false → (run apply b (busOps c)).sticky = s.nextSticky c) := by
  have full := rel.full
  refine ⟨?_, ?_, ?_⟩
  · cases hclear : c.consoleErrClear <;> cases hpop : c.consoleRxPop <;>
      cases hdata : c.consoleTxData <;>
      simp [busOps, hclear, hpop, hdata, apply, Board.clear, Board.push]
  · cases hclear : c.consoleErrClear <;> cases hpop : c.consoleRxPop <;>
      cases hdata : c.consoleTxData <;>
      simp [busOps, hclear, hpop, hdata, apply, Board.clear, Board.push, Board.stored, Board.full,
        TxAccounting.written, State.consoleTx, ← full]
  · intro room
    funext bit
    simp only [State.nextSticky, errSource_of_room rel c room, State.clears, ← rel.sticky]
    cases hclear : c.consoleErrClear <;> cases hpop : c.consoleRxPop <;>
      cases hdata : c.consoleTxData <;>
      simp [busOps, hclear, hpop, hdata, apply, pop_sticky, push_sticky, Board.clear, Board.full,
        Bool.or_assoc]

def phyOps (s : State rxDepth txDepth) (c : Cycle) : List Op :=
  if c.phySinkReady && s.txFifo.readable then [.phyTakes] else []

theorem phyOps_effect (s : State rxDepth txDepth) (c : Cycle) (b : Board rxDepth txDepth) :
    (run apply b (phyOps s c)).rx = b.rx ∧
    (run apply b (phyOps s c)).tx = b.tx.drop (TxAccounting.handed s c).length ∧
    (run apply b (phyOps s c)).sticky = b.sticky := by
  cases hready : c.phySinkReady <;> cases hout : s.txFifo.out <;>
    simp [phyOps, TxAccounting.handed, hready, hout, Fifo.readable, apply, Board.phyTakes]

/-- One clock edge, as queue operations. The words that become readable are the
presented ones, in order, up to those still in transit. -/
theorem cycle_refines {s : State rxDepth txDepth} {b : Board rxDepth txDepth} {c : Cycle}
    (rel : Represents s b) (running : c.rst = false) (room : s.errRxOverflow c = false) :
    ∃ arriving : List UInt8,
      Represents (s.step c) (run apply b (busOps c ++ phyOps s c ++ arriving.map .arrive)) ∧
      s.rxFifo.hidden ++ c.phySource.toList = arriving ++ (s.step c).rxFifo.hidden := by
  obtain ⟨arriving, seen, transit⟩ := s.rxFifo.step_visible c.phySource (s.rxSourceReady c)
  obtain ⟨busRx, busTx, busSticky⟩ := busOps_effect rel c
  obtain ⟨phyRx, phyTx, phySticky⟩ := phyOps_effect s c (run apply b (busOps c))
  have edge : (s.step c).rxFifo = s.rxFifo.step c.phySource (s.rxSourceReady c) := by
    simp [State.step, running]
  have taken : s.rxFifo.stored c.phySource = c.phySource.toList := by
    cases hbyte : c.phySource with
    | none => simp [Fifo.stored]
    | some byte =>
      exact s.rxFifo.stored_of_writable _ (by simpa [State.errRxOverflow, hbyte, State.rxSinkReady]
        using room)
  have popped : (if s.rxSourceReady c then s.rxFifo.visible.tail else s.rxFifo.visible) =
      if c.consoleRxPop then b.rx.tail else b.rx := by
    rw [rel.rx]
    cases hpop : c.consoleRxPop <;> cases hout : s.rxFifo.out <;>
      simp [State.rxSourceReady, hpop, Fifo.visible, Fifo.readable, hout]
  refine ⟨arriving, ?_, by rw [edge, ← transit, taken]⟩
  rw [run_append, run_arrive, run_append]
  refine ⟨?_, ?_, ?_⟩
  · rw [edge, seen, popped, ← busRx, ← phyRx]
  · have balance := TxAccounting.step_balance s c running rel.levelBounded
    rw [phyTx, busTx, rel.tx, balance, List.drop_left]
  · rw [phySticky, busSticky room]
    rfl

def Op.arrived : Op → Option UInt8
  | .arrive byte => some byte
  | _ => none

def Op.isBus : Op → Bool
  | .clear _ | .pop | .push _ => true
  | .phyTakes | .arrive _ => false

theorem cycleOps_arrived (s : State rxDepth txDepth) (c : Cycle) (arriving : List UInt8) :
    (busOps c ++ phyOps s c ++ arriving.map Op.arrive).filterMap Op.arrived = arriving := by
  have bus : (busOps c).filterMap Op.arrived = [] := by
    cases hclear : c.consoleErrClear <;> cases hpop : c.consoleRxPop <;>
      cases hdata : c.consoleTxData <;> simp [busOps, hclear, hpop, hdata, Op.arrived]
  have phy : (phyOps s c).filterMap Op.arrived = [] := by
    unfold phyOps
    split <;> simp [Op.arrived]
  have own : (arriving.map Op.arrive).filterMap Op.arrived = arriving := by
    simp [List.filterMap_map, Function.comp_def, Op.arrived]
  rw [List.filterMap_append, List.filterMap_append, bus, phy, own]
  rfl

theorem cycleOps_isBus (s : State rxDepth txDepth) (c : Cycle) (arriving : List UInt8) :
    (busOps c ++ phyOps s c ++ arriving.map Op.arrive).filter Op.isBus = busOps c := by
  have bus : (busOps c).filter Op.isBus = busOps c := by
    cases hclear : c.consoleErrClear <;> cases hpop : c.consoleRxPop <;>
      cases hdata : c.consoleTxData <;> simp [busOps, hclear, hpop, hdata, Op.isBus]
  have phy : (phyOps s c).filter Op.isBus = [] := by
    unfold phyOps
    split <;> simp [Op.isBus]
  have own : (arriving.map Op.arrive).filter Op.isBus = [] := by
    simp [List.filter_map, Function.comp_def, Op.isBus]
  simp only [List.filter_append, bus, phy, own, List.append_nil]

/-- Every run without reset and without overflow is a run of the queues, with the
same bus strobes and with the presented bytes arriving in order. -/
theorem run_refines (cycles : List Cycle) (running : ∀ c ∈ cycles, c.rst = false)
    (room : ∀ before c later, cycles = before ++ c :: later →
      (after before : State rxDepth txDepth).errRxOverflow c = false) :
    ∃ ops, Represents (after cycles : State rxDepth txDepth) (run apply Board.powerOn ops) ∧
      ops.filterMap Op.arrived ++ (after cycles : State rxDepth txDepth).rxFifo.hidden =
        cycles.flatMap (fun c => c.phySource.toList) ∧
      ops.filter Op.isBus = cycles.flatMap busOps := by
  induction cycles using List.reverseRecOn with
  | nil => exact ⟨[], ⟨rfl, rfl, rfl⟩, rfl, rfl⟩
  | append_singleton cycles c ih =>
    obtain ⟨ops, rel, arrived, bus⟩ := ih (fun d member => running d (by simp [member]))
      (fun before d later split => room before d (later ++ [c]) (by simp [split]))
    obtain ⟨arriving, next, transit⟩ := cycle_refines rel (running c (by simp))
      (room cycles c [] rfl)
    have now := cycleOps_arrived (after cycles : State rxDepth txDepth) c arriving
    have strobes := cycleOps_isBus (after cycles : State rxDepth txDepth) c arriving
    refine ⟨ops ++ (busOps c ++ phyOps (after cycles : State rxDepth txDepth) c ++
      arriving.map .arrive), ?_, ?_, ?_⟩
    · rw [after_concat, run_append]
      exact next
    · rw [after_concat, List.filterMap_append, now, List.append_assoc, ← transit,
        ← List.append_assoc, arrived]
      simp
    · rw [List.filter_append, strobes, bus]
      simp

end Remote8008.Guarantees.ConsoleQueue
