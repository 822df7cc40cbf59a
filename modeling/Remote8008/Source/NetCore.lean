import Mathlib.Data.Nat.Init

/-!
# The clocked processes of the 8008 core

Source: src/b8008_net_core.vhdl:186-208,223,243-292,305-322,332-353,381. The wrapper has
three processes, all on the rising edge of `clk`: the power-on reset, the auto-start and
the bootstrap interrupt. One step is one edge, and every process reads the registers as
they were before it.

The CPU (`b8008_top`) and `debug_clock_control` are other entities. What they drive is an
input of the cycle, as are `rst` and `ext_hold`.
-/

namespace Remote8008.Source.NetCore

/-- What the wrapper reads at an edge besides its own registers. -/
structure Cycle where
  rst : Bool
  extHold : Bool
  phi2 : Bool
  sync : Bool
  s0 : Bool
  s1 : Bool
  s2 : Bool
  dbgRunEnable : Bool
  dbgResetRequest : Bool
  deriving DecidableEq, Repr

/-- Tied to `'0'`: the switch of the board is gone. -/
def resetSw : Bool := false

/-! ## Power-on reset -/

structure Por where
  clkCounter : BitVec 26
  porActive : Bool
  deriving DecidableEq, Repr

def Por.step (p : Por) (rst : Bool) : Por :=
  if rst then ⟨0, true⟩
  else ⟨p.clkCounter + 1, if p.clkCounter.getLsbD 19 then false else p.porActive⟩

/-! ## Auto-start -/

structure AutoStart where
  cnt : BitVec 17
  done : Bool
  pulse : Bool
  deriving DecidableEq, Repr

/-- The pulse is cleared at every edge that does not set it. -/
def AutoStart.step (a : AutoStart) (porActive : Bool) : AutoStart :=
  if porActive || resetSw then ⟨0, false, false⟩
  else if a.done = false then
    if a.cnt = 50000 then ⟨a.cnt + 1, true, true⟩ else ⟨a.cnt + 1, a.done, false⟩
  else { a with pulse := false }

/-! ## Bootstrap interrupt -/

structure Bootstrap where
  phi2Prev : Bool
  int : Bool
  done : Bool
  counter : BitVec 8
  deriving DecidableEq, Repr

/-- The interrupt is raised at the rising edges of `phi2` and dropped for good at one in
the T1I state, once the counter of these edges has come to 16. -/
def Bootstrap.step (b : Bootstrap) (resetInt : Bool) (c : Cycle) : Bootstrap :=
  if resetInt then ⟨c.phi2, false, false, 0⟩
  else if c.phi2 && !b.phi2Prev && !b.done then
    if b.counter ≥ 16 ∧ (c.s2 && c.s1 && !c.s0 && c.sync) then
      ⟨c.phi2, false, true, b.counter + 1⟩
    else ⟨c.phi2, true, b.done, b.counter + 1⟩
  else { b with phi2Prev := c.phi2 }

/-! ## The wrapper -/

structure State where
  por : Por
  autoStart : AutoStart
  bootstrap : Bootstrap
  deriving DecidableEq, Repr

namespace State

/-- The initial values of the signals. -/
def powerOn : State := ⟨⟨0, true⟩, ⟨0, false, false⟩, ⟨false, false, false, 0⟩⟩

/-- The reset of the CPU and the UART. -/
def resetInt (s : State) (c : Cycle) : Bool := s.por.porActive || resetSw || c.dbgResetRequest

/-- The reset of `debug_clock_control`, which leaves its own request out. -/
def debugReset (s : State) : Bool := s.por.porActive || resetSw

/-- `btn_run_stop` of `debug_clock_control`. -/
def btnRunStop (s : State) : Bool := s.autoStart.pulse

/-- `run_enable` of the CPU. -/
def runEnable (c : Cycle) : Bool := c.dbgRunEnable && !c.extHold

def step (s : State) (c : Cycle) : State where
  por := s.por.step c.rst
  autoStart := s.autoStart.step s.por.porActive
  bootstrap := s.bootstrap.step (s.resetInt c) c

end State

end Remote8008.Source.NetCore
