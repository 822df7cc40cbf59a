import Remote8008.Source.ConsolePump

/-!
# A host program against the clocked bridge

A client of host/b8008net/console.py at work on the registers of soc/console_bridge.py,
clock cycle by clock cycle. The host and the clock take turns in any order, so any
number of cycles can pass between two operations of the host. A write is sent without
acknowledgement: it stays in flight until a cycle carries its strobe or it is lost, in
order, and a read is performed behind the writes issued before it. The other inputs of a
cycle (the serial PHY, resets, strobes of other masters) are the environment's.

`trace` records what happened: every clock edge with the state it met, every operation
of the host, and the calls with their results.
-/

namespace Remote8008.System.BridgeSession
open Lib.Interaction Source.ConsoleBridge Source.Console Source.ConsolePump

/-- What a read of a register returns in a state; write-only registers read as zero. -/
def readCsr {rxDepth txDepth : Nat} (s : State rxDepth txDepth) : Reg → Nat
  | .consoleRx => s.consoleRx.word
  | .consoleTx => s.consoleTx.word
  | .consoleErr => errWord s.sticky
  | .consoleRxPop | .consoleTxData | .consoleErrClear => 0

/-- `full` is clear in a word read from `console_tx`. -/
def ShowsRoom (item : Item) : Prop := item.toWord &&& txFullBit = 0

/-- `valid` is set in a word read from `console_rx`. -/
def ShowsByte (item : Item) : Prop := item.toWord &&& rxValidBit ≠ 0

instance (item : Item) : Decidable (ShowsByte item) := inferInstanceAs (Decidable (_ ≠ _))

/-- A cycle that carries the strobe of a write; read-only registers ignore it. -/
def strobe (c : Cycle) (value : Nat) : Reg → Cycle
  | .consoleRxPop => { c with consoleRxPop := true }
  | .consoleTxData => { c with consoleTxData := some (UInt32.ofNat value) }
  | .consoleErrClear => { c with consoleErrClear := some (UInt32.ofNat value) }
  | .consoleRx | .consoleTx | .consoleErr => c

/-- A cycle in which nothing happens outside. -/
def quiet : Cycle :=
  { rst := false, phySource := none, phySinkReady := false, consoleRxRead := false,
    consoleRxPop := false, consoleTxData := none, consoleErrClear := none }

inductive Obs (rxDepth txDepth : Nat) (α : Type) where
  | edge (s : State rxDepth txDepth) (c : Cycle)
  | op (o : Op Port Item)
  | called
  | returned (value : α)

structure Sys (rxDepth txDepth : Nat) (α : Type) where
  bridge : State rxDepth txDepth
  session : Option (Client α)
  flight : List (Reg × Nat)
  trace : List (Obs rxDepth txDepth α)

variable {rxDepth txDepth : Nat} {α κ : Type}

/-- A host about to run `p` against a bridge in state `s`. -/
def Sys.start (s : State rxDepth txDepth) (p : Option (Client α)) : Sys rxDepth txDepth α :=
  ⟨s, p, [], []⟩

inductive Event (κ : Type) where
  | cycle (env : Cycle) (lands : Bool)
  | host (input : List UInt8)
  | lost
  | calls (call : κ)
  | returns

/-- The cycle as the bridge sees it, and the writes still in flight after it. -/
def wires (flight : List (Reg × Nat)) (env : Cycle) (lands : Bool) : Cycle × List (Reg × Nat) :=
  match lands, flight with
  | true, (reg, value) :: rest => (strobe env value reg, rest)
  | _, _ => (env, flight)

/-- The next operation of the host, if it can be performed. -/
def hostStep (s : Sys rxDepth txDepth α) (input : List UInt8) : Sys rxDepth txDepth α :=
  match s.session with
  | some (.read (.csr reg) next) =>
    if s.flight = [] then
      { s with
        session := some (next (.word (readCsr s.bridge reg)))
        trace := s.trace ++ [.op (.read (.csr reg) (.word (readCsr s.bridge reg)))] }
    else s
  | some (.read .stdin next) =>
    { s with
      session := some (next (.bytes (input.take readChunk)))
      trace := s.trace ++ [.op (.read .stdin (.bytes (input.take readChunk)))] }
  | some (.write (.csr reg) item next) =>
    { s with
      session := some next
      flight := s.flight ++ [(reg, item.toWord)]
      trace := s.trace ++ [.op (.write (.csr reg) item)] }
  | some (.write port item next) =>
    { s with session := some next, trace := s.trace ++ [.op (.write port item)] }
  | _ => s

def step (program : κ → Client α) (s : Sys rxDepth txDepth α) : Event κ → Sys rxDepth txDepth α
  | .cycle env lands =>
    { s with
      bridge := s.bridge.step (wires s.flight env lands).1
      flight := (wires s.flight env lands).2
      trace := s.trace ++ [.edge s.bridge (wires s.flight env lands).1] }
  | .host input => hostStep s input
  | .lost => { s with flight := s.flight.tail }
  | .calls call =>
    match s.session with
    | none => { s with session := some (program call), trace := s.trace ++ [.called] }
    | some _ => s
  | .returns =>
    match s.session with
    | some (.ret value) => { s with session := none, trace := s.trace ++ [.returned value] }
    | _ => s

/-- The moves of the system with their guards. -/
inductive Move (program : κ → Client α) (s : Sys rxDepth txDepth α) :
    Event κ → Sys rxDepth txDepth α → Prop where
  | stay (event : Event κ) (other : ∀ env lands, event ≠ .cycle env lands) :
      Move program s event s
  | edge (env : Cycle) (lands : Bool) : Move program s (.cycle env lands)
      { s with bridge := s.bridge.step env, trace := s.trace ++ [.edge s.bridge env] }
  | lands (env : Cycle) (reg : Reg) (value : Nat) (rest : List (Reg × Nat))
      (first : s.flight = (reg, value) :: rest) : Move program s (.cycle env true)
      { s with
        bridge := s.bridge.step (strobe env value reg)
        flight := rest
        trace := s.trace ++ [.edge s.bridge (strobe env value reg)] }
  | read (input : List UInt8) (reg : Reg) (next : Item → Client α)
      (reading : s.session = some (.read (.csr reg) next)) (landed : s.flight = []) :
      Move program s (.host input)
      { s with
        session := some (next (.word (readCsr s.bridge reg)))
        trace := s.trace ++ [.op (.read (.csr reg) (.word (readCsr s.bridge reg)))] }
  | input (input : List UInt8) (next : Item → Client α)
      (reading : s.session = some (.read .stdin next)) : Move program s (.host input)
      { s with
        session := some (next (.bytes (input.take readChunk)))
        trace := s.trace ++ [.op (.read .stdin (.bytes (input.take readChunk)))] }
  | write (input : List UInt8) (reg : Reg) (item : Item) (next : Client α)
      (writing : s.session = some (.write (.csr reg) item next)) : Move program s (.host input)
      { s with
        session := some next
        flight := s.flight ++ [(reg, item.toWord)]
        trace := s.trace ++ [.op (.write (.csr reg) item)] }
  | output (input : List UInt8) (port : Port) (item : Item) (next : Client α)
      (writing : s.session = some (.write port item next)) (stream : ∀ reg, port ≠ .csr reg) :
      Move program s (.host input)
      { s with session := some next, trace := s.trace ++ [.op (.write port item)] }
  | lost : Move program s .lost { s with flight := s.flight.tail }
  | calls (call : κ) (idle : s.session = none) : Move program s (.calls call)
      { s with session := some (program call), trace := s.trace ++ [.called] }
  | returns (value : α) (finished : s.session = some (.ret value)) : Move program s .returns
      { s with session := none, trace := s.trace ++ [.returned value] }

theorem hostStep_moves (program : κ → Client α) (s : Sys rxDepth txDepth α)
    (input : List UInt8) : Move program s (.host input) (hostStep s input) := by
  have stays : Move program s (.host input) s := .stay _ (by simp)
  unfold hostStep
  split
  next reg next reading =>
    split
    · exact .read input reg next reading ‹_›
    · exact stays
  next next reading => exact .input input next reading
  next reg item next writing => exact .write input reg item next writing
  next port item next other writing =>
    exact .output input port item next writing fun reg same => other reg same
  · exact stays

theorem step_moves (program : κ → Client α) (s : Sys rxDepth txDepth α) (event : Event κ) :
    Move program s event (step program s event) := by
  cases event with
  | cycle env lands =>
    cases lands with
    | false => exact .edge env false
    | true =>
      cases first : s.flight with
      | nil =>
        have idle : step program s (.cycle env true) = { s with
            bridge := s.bridge.step env, trace := s.trace ++ [.edge s.bridge env] } := by
          simp [step, wires, first]
        rw [idle]
        exact .edge env true
      | cons write rest =>
        have carried : step program s (.cycle env true) = { s with
            bridge := s.bridge.step (strobe env write.2 write.1)
            flight := rest
            trace := s.trace ++ [.edge s.bridge (strobe env write.2 write.1)] } := by
          simp [step, wires, first]
        rw [carried]
        exact .lands env write.1 write.2 rest first
  | host input => exact hostStep_moves program s input
  | lost => exact .lost
  | calls call =>
    simp only [step]
    split
    · exact .calls call ‹_›
    · exact .stay _ (by simp)
  | returns =>
    simp only [step]
    split
    · exact .returns _ ‹_›
    · exact .stay _ (by simp)

theorem Move.trace_extends {program : κ → Client α} {s s' : Sys rxDepth txDepth α}
    {event : Event κ} (move : Move program s event s') : s.trace <+: s'.trace := by
  cases move with
  | stay => exact List.prefix_rfl
  | lost => exact List.prefix_rfl
  | _ => exact List.prefix_append _ _

/-! ## Programs under a specification -/

def Obs.op? : Obs rxDepth txDepth α → Option (Op Port Item)
  | op o => some o
  | edge _ _ | called | returned _ => none

/-- What the host did, oldest first. -/
def operations (trace : List (Obs rxDepth txDepth α)) : List (Op Port Item) :=
  trace.filterMap Obs.op?

@[simp] theorem operations_nil : operations ([] : List (Obs rxDepth txDepth α)) = [] := rfl

@[simp] theorem operations_append (first second : List (Obs rxDepth txDepth α)) :
    operations (first ++ second) = operations first ++ operations second := by
  simp [operations]

@[simp] theorem operations_op (o : Op Port Item) :
    operations [(.op o : Obs rxDepth txDepth α)] = [o] := rfl

@[simp] theorem operations_edge (s : State rxDepth txDepth) (c : Cycle) :
    operations [(.edge s c : Obs rxDepth txDepth α)] = [] := rfl

@[simp] theorem operations_called :
    operations [(.called : Obs rxDepth txDepth α)] = [] := rfl

@[simp] theorem operations_returned (value : α) :
    operations [(.returned value : Obs rxDepth txDepth α)] = [] := rfl

variable {γ : Type}

/-- The host has kept to the monitor, and what is left of its call will. -/
structure Conforms (m : Monitor Port Item γ) (g : γ) (idle : γ → Prop) (post : α → γ → Prop)
    (s : Sys rxDepth txDepth α) : Prop where
  allowed : m.Allowed g (operations s.trace)
  resting : s.session = none → idle (m.after g (operations s.trace))
  running : ∀ p, s.session = some p → p.Wp m post (m.after g (operations s.trace))

theorem Conforms.step {m : Monitor Port Item γ} {g : γ} {idle : γ → Prop} {post : α → γ → Prop}
    {program : κ → Client α} (closes : ∀ value h, post value h → idle h)
    (serves : ∀ call h, idle h → (program call).Wp m post h) {s s' : Sys rxDepth txDepth α}
    {event : Event κ} (conforms : Conforms m g idle post s) (move : Move program s event s') :
    Conforms m g idle post s' := by
  have extended : ∀ (o : Op Port Item) (next : Client α) (b : State rxDepth txDepth)
      (flight : List (Reg × Nat)), m.allows (m.after g (operations s.trace)) o →
      next.Wp m post (m.follow (m.after g (operations s.trace)) o) →
      Conforms m g idle post ⟨b, some next, flight, s.trace ++ [.op o]⟩ := by
    intro o next b flight now later
    refine ⟨by simpa using conforms.allowed.concat now, by simp, fun p same => ?_⟩
    obtain rfl : next = p := Option.some.inj same
    rw [operations_append, operations_op, m.after_concat]
    exact later
  cases move with
  | stay => exact conforms
  | edge env =>
    exact ⟨by simpa using conforms.allowed, by simpa using conforms.resting,
      by simpa using conforms.running⟩
  | lands env reg value rest first =>
    exact ⟨by simpa using conforms.allowed, by simpa using conforms.resting,
      by simpa using conforms.running⟩
  | read input reg next reading landed =>
    have meets := conforms.running _ reading (.word (readCsr s.bridge reg))
    exact extended _ _ _ _ meets.1 meets.2
  | input input next reading =>
    have meets := conforms.running _ reading (.bytes (input.take readChunk))
    exact extended _ _ _ _ meets.1 meets.2
  | write input reg item next writing =>
    have meets := conforms.running _ writing
    exact extended _ _ _ _ meets.1 meets.2
  | output input port item next writing stream =>
    have meets := conforms.running _ writing
    exact extended _ _ _ _ meets.1 meets.2
  | lost => exact ⟨conforms.allowed, conforms.resting, conforms.running⟩
  | calls call none =>
    refine ⟨by simpa using conforms.allowed, by simp, fun p same => ?_⟩
    obtain rfl : program call = p := Option.some.inj same
    simpa using serves call _ (conforms.resting none)
  | returns value finished =>
    refine ⟨by simpa using conforms.allowed, fun _ => ?_, by simp⟩
    simpa using closes value _ (conforms.running _ finished)

end Remote8008.System.BridgeSession
