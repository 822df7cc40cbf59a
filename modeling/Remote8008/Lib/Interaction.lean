import Mathlib.Logic.Function.Basic

/-!
# Programs that talk to a register bank

A program is a finite tree of register reads and writes. It says nothing about
when an operation takes effect: a transport decides that, so the same program can
be run against a perfect bus, a lossy one or a delayed one.
-/

namespace Remote8008.Lib.Interaction

inductive Prog (ρ ω α : Type) where
  | ret (value : α)
  | read (reg : ρ) (next : ω → Prog ρ ω α)
  | write (reg : ρ) (value : ω) (next : Prog ρ ω α)

variable {ρ ω α β : Type}

namespace Prog

def map (f : α → β) : Prog ρ ω α → Prog ρ ω β
  | ret value => ret (f value)
  | read reg next => read reg fun word => (next word).map f
  | write reg value next => write reg value (next.map f)

/-- Every write of the program, on every path, satisfies `ok`, and so does every
result it can return. -/
def Always (okWrite : ρ → ω → Prop) (okResult : α → Prop) : Prog ρ ω α → Prop
  | ret value => okResult value
  | read _ next => ∀ word, Always okWrite okResult (next word)
  | write reg value next => okWrite reg value ∧ Always okWrite okResult next

end Prog

end Remote8008.Lib.Interaction
