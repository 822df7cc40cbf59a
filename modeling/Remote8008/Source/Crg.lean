import Remote8008.Lib.ResetSync

/-!
# The clock and reset generator

Source: soc/versa_soc.py:400-497, class `_CRG`. Both resets come from an
`AsyncResetSynchronizer`, which on this device is a pair of flip-flops with asynchronous
preset (`FD1S3BX`) that power up preset. `pll.locked` and `reset` are inputs that may
change at any moment; the edges of the two clocks come in any order, also together. The
power-on counter acts only on the reset input of the PLL, a vendor primitive, and is
not modelled.
-/

namespace Remote8008.Source.Crg
open Lib.ResetSync

structure State where
  locked : Bool
  reset : Bool
  sys : Sync
  b8008 : Sync
  deriving DecidableEq, Repr

namespace State

/-- `~pll.locked | self.reset`, the gate of `cd_sys`. -/
def sysRstGate (s : State) : Bool := !s.locked || s.reset

/-- `~pll.locked | self.reset | ResetSignal("sys")`. -/
def b8008RstGate (s : State) : Bool := !s.locked || s.reset || s.sys.rst

end State

inductive Event where
  | inputs (locked reset : Bool)
  | edges (sys b8008 : Bool)
  deriving DecidableEq, Repr

namespace Event

def sysEdge : Event → Bool
  | inputs _ _ => false
  | edges sys _ => sys

def b8008Edge : Event → Bool
  | inputs _ _ => false
  | edges _ b8008 => b8008

end Event

namespace State

/-- The presets act at once, first in `cd_sys` and through its reset in `cd_b8008`. -/
def settle (s : State) : State :=
  let sys := s.sys.force s.sysRstGate
  { s with sys, b8008 := s.b8008.force ({ s with sys } : State).b8008RstGate }

/-- Coinciding edges sample both synchronizers under the gates before them. -/
def step (s : State) : Event → State
  | .inputs locked reset => settle { s with locked, reset }
  | .edges sys b8008 => settle { s with
      sys := if sys then s.sys.shift.force s.sysRstGate else s.sys
      b8008 := if b8008 then s.b8008.shift.force s.b8008RstGate else s.b8008 }

end State

/-- Power-up, with the inputs at any level. -/
def powerOn (locked reset : Bool) : State := ⟨locked, reset, .preset, .preset⟩

end Remote8008.Source.Crg
