import Remote8008.Source.ConsoleBridge
import Remote8008.Source.NetCore

/-!
# The wrapper of the 8008 core

Source: soc/b8008_integration.py:42-84. The console bridge runs in `cd_sys`, the VHDL core
in `cd_b8008`; between them go the two serial lines and one level, `stall`, through a
`MultiReg`. No phase relation of the clocks is relied upon, so a run is any interleaving of
their edges.

The serial lines, the ROM port and the debug bus are not followed: what the PHY presents
and what the CPU shows at an edge are inputs. `MultiReg` belongs to Migen: two flip-flops
without a reset.
-/

namespace Remote8008.Source.B8008Core

/-- `MultiReg(self.console.stall, stall_b, "b8008")`. -/
structure MultiReg where
  first : Bool
  second : Bool
  deriving DecidableEq, Repr

structure State (rxDepth txDepth : Nat) where
  console : ConsoleBridge.State rxDepth txDepth
  multiReg : MultiReg
  core : NetCore.State

variable {rxDepth txDepth : Nat}

def powerOn : State rxDepth txDepth :=
  ⟨ConsoleBridge.powerOn, ⟨false, false⟩, NetCore.State.powerOn⟩

/-- An edge of one of the two clocks. -/
inductive Event where
  | sys (c : ConsoleBridge.Cycle)
  | b8008 (c : NetCore.Cycle)
  deriving DecidableEq, Repr

namespace State

def stallB (s : State rxDepth txDepth) : Bool := s.multiReg.second

/-- `i_ext_hold=stall_b`; the other inputs of the core are as the cycle gives them. -/
def wired (s : State rxDepth txDepth) (c : NetCore.Cycle) : NetCore.Cycle :=
  { c with extHold := s.stallB }

def step (s : State rxDepth txDepth) : Event → State rxDepth txDepth
  | .sys c => { s with console := s.console.step c }
  | .b8008 c =>
    { s with
      multiReg := ⟨s.console.stall, s.multiReg.first⟩
      core := s.core.step (s.wired c) }

end State

end Remote8008.Source.B8008Core
