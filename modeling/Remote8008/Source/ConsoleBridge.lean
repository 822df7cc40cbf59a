import Mathlib.Algebra.Group.Nat.Defs
import Remote8008.Lib.Machine
import Remote8008.Lib.BufferedFifo

/-!
# ConsoleBridge, cycle by cycle

Source: soc/console_bridge.py:19-211. Everything lives in `cd_sys`, so one step is
one clock edge: the combinational signals are functions of the registers and of
the inputs of the cycle, and `step` gives the registers after the edge.

`stream.SyncFIFO(..., buffered=True)` and the CSR strobes belong to Migen and
LiteX. The FIFO is the buffered one of `Lib.BufferedFifo`; that is what LiteX builds
for depths of at least 2 (a shallower `SyncFIFO` is a one-word buffer whose level reads
zero), so the model is the code for those alone. A CSR write is its
`re` strobe with the 32-bit bus word, of which the register keeps its low bits.
The serial PHY is outside: it appears only as the bytes it presents and as the
readiness of its transmit side.
-/

namespace Remote8008.Source.ConsoleBridge
open Lib.BufferedFifo

def rxHeadroom : Int := 64
def rxHysteresis : Int := 64

/-- Thresholds are Python integers: a depth below the headroom makes them negative. -/
def hwm (rxDepth : Nat) : Int := rxDepth - rxHeadroom
def lwm (rxDepth : Nat) : Int := hwm rxDepth - rxHysteresis

/-- Registers of the bridge. `sticky` is indexed by the bit of `console_err`. -/
structure State (rxDepth txDepth : Nat) where
  rxFifo : Fifo UInt8 rxDepth
  txFifo : Fifo UInt8 txDepth
  stall : Bool
  sticky : Fin 3 → Bool

/-- Everything that drives the bridge during one clock cycle. -/
structure Cycle where
  rst : Bool
  phySource : Option UInt8
  phySinkReady : Bool
  consoleRxRead : Bool
  consoleRxPop : Bool
  consoleTxData : Option UInt32
  consoleErrClear : Option UInt32
  deriving DecidableEq, Repr

structure ConsoleRx where
  data : UInt8
  valid : Bool
  level : Nat
  deriving DecidableEq, Repr

structure ConsoleTx where
  level : Nat
  full : Bool
  deriving DecidableEq, Repr

/-- Bus words: `CSRField`s are packed from bit 0 in declaration order. -/
def ConsoleRx.word (r : ConsoleRx) : Nat := r.data.toNat + 2 ^ 8 * r.valid.toNat + 2 ^ 9 * r.level
def ConsoleTx.word (t : ConsoleTx) : Nat := t.level + 2 ^ 9 * t.full.toNat
def errWord (sticky : Fin 3 → Bool) : Nat :=
  (sticky 0).toNat + 2 * (sticky 1).toNat + 4 * (sticky 2).toNat

variable {rxDepth txDepth : Nat}

def powerOn : State rxDepth txDepth := ⟨Fifo.empty, Fifo.empty, false, fun _ => false⟩

namespace State

/-! ## Receive side -/

def rxLevelCapped (s : State rxDepth txDepth) : Nat :=
  if s.rxFifo.level > rxDepth then rxDepth else s.rxFifo.level

/-- Fields of `console_rx`, all taken in the same cycle. The level field is 13 bits wide. -/
def consoleRx (s : State rxDepth txDepth) : ConsoleRx :=
  match s.rxFifo.out with
  | some head => ⟨head, true, s.rxLevelCapped % 2 ^ 13⟩
  | none => ⟨0, false, 0⟩

def rxSinkReady (s : State rxDepth txDepth) : Bool := s.rxFifo.writable

/-- `rx_fifo.source.ready`: a pop reaches the FIFO only against a valid word. -/
def rxSourceReady (s : State rxDepth txDepth) (c : Cycle) : Bool :=
  c.consoleRxPop && s.rxFifo.readable

def errRxPopWhenEmpty (s : State rxDepth txDepth) (c : Cycle) : Bool :=
  c.consoleRxPop && !s.rxFifo.readable

def errRxOverflow (s : State rxDepth txDepth) (c : Cycle) : Bool :=
  c.phySource.isSome && !s.rxSinkReady

/-! ## Transmit side -/

/-- Decoded from the level, not from the readiness of the inner FIFO. -/
def txFull (s : State rxDepth txDepth) : Bool := decide (s.txFifo.level = txDepth)

def consoleTx (s : State rxDepth txDepth) : ConsoleTx := ⟨s.txFifo.level % 2 ^ 9, s.txFull⟩

/-- `tx_fifo.sink`: the low eight bits of a write issued while not full. -/
def txSink (s : State rxDepth txDepth) (c : Cycle) : Option UInt8 :=
  if s.txFull then none else c.consoleTxData.map UInt32.toUInt8

def errTxWriteWhenFull (s : State rxDepth txDepth) (c : Cycle) : Bool :=
  c.consoleTxData.isSome && s.txFull

/-! ## Backpressure and sticky errors -/

def nextStall (s : State rxDepth txDepth) : Bool :=
  if (s.rxFifo.level : Int) ≥ hwm rxDepth then true
  else if (s.rxFifo.level : Int) ≤ lwm rxDepth then false
  else s.stall

/-- The `sources` table, in the order of the `console_err` bits. -/
def errSource (s : State rxDepth txDepth) (c : Cycle) : Fin 3 → Bool
  | 0 => s.errRxOverflow c
  | 1 => s.errTxWriteWhenFull c
  | 2 => s.errRxPopWhenEmpty c

def clears (c : Cycle) (bit : Fin 3) : Bool :=
  match c.consoleErrClear with
  | some mask => mask.toNat.testBit bit.val
  | none => false

/-- Set wins over a clear in the same cycle. -/
def nextSticky (s : State rxDepth txDepth) (c : Cycle) (bit : Fin 3) : Bool :=
  if s.errSource c bit then true else if clears c bit then false else s.sticky bit

/-- One `cd_sys` edge. A reset reloads every register except the sticky bits,
which are declared `reset_less` and keep following their own update. -/
def step (s : State rxDepth txDepth) (c : Cycle) : State rxDepth txDepth where
  rxFifo := if c.rst then Fifo.empty else s.rxFifo.step c.phySource (s.rxSourceReady c)
  txFifo := if c.rst then Fifo.empty else s.txFifo.step (s.txSink c) c.phySinkReady
  stall := if c.rst then false else s.nextStall
  sticky := s.nextSticky c

end State

/-- State after a sequence of cycles from power-on. -/
def after (cycles : List Cycle) : State rxDepth txDepth :=
  Lib.Machine.run State.step powerOn cycles

theorem after_append (first second : List Cycle) :
    (after (first ++ second) : State rxDepth txDepth) =
      Lib.Machine.run State.step (after first) second :=
  Lib.Machine.run_append _ _ _ _

theorem after_concat (cycles : List Cycle) (c : Cycle) :
    (after (cycles ++ [c]) : State rxDepth txDepth) = (after cycles).step c :=
  Lib.Machine.run_concat _ _ _ _

/-- The exported fields of the head register. -/
theorem consoleRx_valid (s : State rxDepth txDepth) :
    s.consoleRx.valid = s.rxFifo.readable := by
  cases hout : s.rxFifo.out <;> simp [State.consoleRx, Fifo.readable, hout]

end Remote8008.Source.ConsoleBridge
