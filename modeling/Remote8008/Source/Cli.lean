import Remote8008.Source.BoardConnect

/-!
# The commands up to a connected board

Source: host/b8008net/cli.py:32-37,58-71,111-131. `status` hands the lookup of the host to
`Board.connect`; `login` looks it up first, to explain a failure, and passes it on.
-/

namespace Remote8008.Source.Cli
open Discovery BoardConnect

variable {α : Type}

/-- `_connect`, as `status` uses it. -/
def statusConnect (connectTo : Nat → String → Py α) (host : Option String) (noCache : Bool) :
    Py α :=
  connect connectTo host (!noCache)

end Remote8008.Source.Cli
