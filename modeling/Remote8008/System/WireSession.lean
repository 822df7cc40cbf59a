import Remote8008.System.BridgeSession
import Remote8008.System.ReadSession

/-!
# A host program over the datagrams of the bridge

A client of host/b8008net/console.py whose register operations travel as Etherbone
datagrams: a read is a call of `CommUDPBroadcast.read` (host/b8008net/eb_server.py:78-115)
with its retries, a write is one datagram that nobody acknowledges. The board takes the
datagrams in the order they were sent, each at most once, and runs firmware/eb8008.c on
them over the console registers of soc/console_bridge.py; any of them can be lost. What
the socket hears is as open as in `System.ReadSession`: replies late or repeated, the
host's own broadcasts and noise.

The clock of the bridge goes on all the time. An access of the server takes one edge of
it, in which the rest of the board does what `env` says.
-/

namespace Remote8008.System.WireSession
open Lib.Interaction Source.ConsoleBridge Source.Console Source.ConsolePump
open Source.Eb8008 Source.EtherboneWire Source.EbServer
open BridgeSession (readCsr strobe quiet)

/-! ## The board -/

/-- Where csr.csv puts the registers of the bank. -/
structure CsrMap where
  addr : Reg → UInt32
  distinct : ∀ reg reg', addr reg = addr reg' → reg = reg'

def registers : List Reg :=
  [.consoleRx, .consoleRxPop, .consoleTx, .consoleTxData, .consoleErr, .consoleErrClear]

def CsrMap.reg? (map : CsrMap) (address : UInt32) : Option Reg :=
  registers.find? fun reg => map.addr reg = address

/-- The bridge, the edges it has seen, and what the rest of the board does on the edge of
the next access. -/
structure Board (rxDepth txDepth : Nat) where
  bridge : State rxDepth txDepth
  edges : List (State rxDepth txDepth × Cycle)
  env : Cycle

variable {rxDepth txDepth : Nat} {α κ : Type}

def Board.tick (b : Board rxDepth txDepth) (c : Cycle) : Board rxDepth txDepth :=
  { b with bridge := b.bridge.step c, edges := b.edges ++ [(b.bridge, c)] }

/-- The edge of a read access. -/
def selected (env : Cycle) : Reg → Cycle
  | .consoleRx => { env with consoleRxRead := true }
  | .consoleRxPop | .consoleTx | .consoleTxData | .consoleErr | .consoleErrClear => env

/-- Addresses outside the bank belong to the rest of the board. -/
def csrBus (map : CsrMap) : Bus (Board rxDepth txDepth) where
  read b address :=
    match map.reg? address with
    | some reg => (UInt32.ofNat (readCsr b.bridge reg), b.tick (selected b.env reg))
    | none => (0, b.tick b.env)
  write b address value :=
    match map.reg? address with
    | some reg => b.tick (strobe b.env value.toNat reg)
    | none => b.tick b.env

/-! ## The host -/

/-- What LiteX makes of the register operations: `Codec` for reads, and one record with one
word for a write. -/
structure Transport extends Codec where
  encodeWrite : UInt32 → UInt32 → List UInt8
  wrote : ∀ base value, ∃ h r, Clear h ∧ encodeWrite base value = encode h [r] ∧
    r.reads = none ∧ r.writes = some (.single base value)

theorem Transport.speaks (transport : Transport) (base value : UInt32) :
    Speaks (.write base) (transport.encodeWrite base value) := by
  obtain ⟨h, r, clear, bytes, readless, writes⟩ := transport.wrote base value
  exact ⟨h, r, _, clear, bytes, readless, writes, rfl⟩

def Transport.datagram (transport : Transport) (map : CsrMap) (reg : Reg) (value : Nat) : Sent :=
  ⟨transport.encodeWrite (map.addr reg) (UInt32.ofNat value), .write (map.addr reg),
    transport.speaks _ _⟩

/-- An operation that was completed, with the edges before it was issued and before it
was over. -/
structure Span where
  op : Op Port Item
  began : Nat
  ended : Nat

/-- The datagrams before `head` have been executed or lost. `issued` is the number of edges
before the read in progress was issued; after an exception of `read` nothing more is done. -/
structure Sys (rxDepth txDepth : Nat) (α : Type) where
  net : ReadSession.Sys (Board rxDepth txDepth)
  head : Nat
  session : Option (Client α)
  aborted : Bool
  issued : Nat
  history : List Span
  results : List α

namespace Sys

def start (b : State rxDepth txDepth) : Sys rxDepth txDepth α :=
  ⟨ReadSession.Sys.start ⟨b, [], quiet⟩, 0, none, false, 0, [], []⟩

def board (s : Sys rxDepth txDepth α) : Board rxDepth txDepth := s.net.bus

def clock (s : Sys rxDepth txDepth α) : Nat := s.board.edges.length

/-- The datagrams under way, oldest first. -/
def wire (s : Sys rxDepth txDepth α) : List Sent := s.net.comm.sent.drop s.head

end Sys

/-- The word of a read of one word. -/
def single : Outcome → Option UInt32
  | .returned (.word value) => some value
  | .returned (.words [value]) => some value
  | .returned (.words _) | .timedOut | .failed => none

inductive Event (κ : Type) where
  | cycle (env : Cycle)
  | host (input : List UInt8)
  | timeout
  | receive (datas : List UInt8)
  | execute (env : Cycle)
  | lose
  | calls (call : κ)
  | returns

/-- What the rest of the board does on an edge. -/
def Event.env? : Event κ → Option Cycle
  | .cycle env | .execute env => some env
  | .host _ | .timeout | .receive _ | .lose | .calls _ | .returns => none

section
variable (transport : Transport) (map : CsrMap)

def Sys.network (s : Sys rxDepth txDepth α) (event : ReadSession.Event (Board rxDepth txDepth)) :
    Sys rxDepth txDepth α :=
  { s with net := ReadSession.step transport.toCodec (csrBus map) s.net event }

/-- A step of `CommUDPBroadcast.read`; the program goes on when the call is over. -/
def Sys.resume (s : Sys rxDepth txDepth α) (event : ReadSession.Event (Board rxDepth txDepth)) :
    Sys rxDepth txDepth α :=
  let s' := s.network transport map event
  match s'.net.comm.finished.drop s.net.comm.finished.length, s.session with
  | [], _ => s'
  | (_, outcome) :: _, some (.read (.csr reg) next) =>
    match single outcome with
    | some value =>
      { s' with
        session := some (next (.word value.toNat))
        history := s.history ++ [⟨.read (.csr reg) (.word value.toNat), s.issued, s.clock⟩] }
    | none => { s' with aborted := true }
  | _, _ => { s' with aborted := true }

/-- An operation that is over at once. -/
def Sys.perform (s : Sys rxDepth txDepth α) (o : Op Port Item) (next : Client α) :
    Sys rxDepth txDepth α :=
  { s with session := some next, history := s.history ++ [⟨o, s.clock, s.clock⟩] }

/-- The next operation of the host. LiteX's server reads one word at a time. -/
def hostStep (s : Sys rxDepth txDepth α) (input : List UInt8) : Sys rxDepth txDepth α :=
  match s.session with
  | some (.read (.csr reg) _) =>
    if s.aborted = true ∨ s.net.comm.reading.isSome then s
    else { s with issued := s.clock }.resume transport map (.call (map.addr reg).toNat (some 1))
  | some (.read .stdin next) =>
    s.perform (.read .stdin (.bytes (input.take readChunk))) (next (.bytes (input.take readChunk)))
  | some (.write (.csr reg) item next) =>
    (s.perform (.write (.csr reg) item) next).network transport map
      (.broadcast (transport.datagram map reg item.toWord))
  | some (.write port item next) => s.perform (.write port item) next
  | _ => s

/-- The board takes the oldest datagram under way. -/
def Sys.execute (s : Sys rxDepth txDepth α) (env : Cycle) : Sys rxDepth txDepth α :=
  if s.head < s.net.comm.sent.length then
    { (s.network transport map (.disturb { s.board with env := env })).network transport map
        (.execute s.head) with head := s.head + 1 }
  else s

/-- An event that is not enabled leaves the system alone. -/
def step (program : κ → Client α) (s : Sys rxDepth txDepth α) : Event κ → Sys rxDepth txDepth α
  | .cycle env => s.network transport map (.disturb (s.board.tick env))
  | .host input => hostStep transport map s input
  | .timeout => s.resume transport map .timeout
  | .receive datas => s.resume transport map (.receive datas)
  | .execute env => s.execute transport map env
  | .lose => if s.head < s.net.comm.sent.length then { s with head := s.head + 1 } else s
  | .calls call =>
    match s.session with
    | none => { s with session := some (program call) }
    | some _ => s
  | .returns =>
    match s.session with
    | some (.ret value) => { s with session := none, results := s.results ++ [value] }
    | _ => s

/-! ## What a step can do -/

/-- `begin` either cannot encode its request, or sends it under the next identifier. -/
theorem begin_cases (codec : Codec) (m : Comm) (r : Reading) :
    m.begin codec r = { m with counter := m.counter + 1 }.finish r .failed ∨
    ∃ request, request.kind = .read (m.counter + 1) r.addrs ∧ m.begin codec r = { m with
      counter := m.counter + 1
      sent := m.sent ++ [request]
      reading := some { r with tries := r.tries + 1, requests := r.requests ++ [request] } } := by
  unfold Comm.begin
  dsimp only
  split
  · exact .inl rfl
  · exact .inr ⟨_, rfl, rfl⟩

/-- The moves of the system. -/
inductive Move (program : κ → Client α) (s : Sys rxDepth txDepth α) :
    Event κ → Sys rxDepth txDepth α → Prop where
  | stay (event : Event κ) : Move program s event s
  | edge (env : Cycle) : Move program s (.cycle env)
      { s with net := { s.net with bus := s.board.tick env } }
  | stream (input : List UInt8) (next : Item → Client α)
      (reading : s.session = some (.read .stdin next)) : Move program s (.host input)
      (s.perform (.read .stdin (.bytes (input.take readChunk)))
        (next (.bytes (input.take readChunk))))
  | print (input : List UInt8) (port : Port) (item : Item) (next : Client α)
      (writing : s.session = some (.write port item next)) (other : ∀ reg, port ≠ .csr reg) :
      Move program s (.host input) (s.perform (.write port item) next)
  | write (input : List UInt8) (reg : Reg) (item : Item) (next : Client α)
      (writing : s.session = some (.write (.csr reg) item next)) : Move program s (.host input)
      { s.perform (.write (.csr reg) item) next with
        net := { s.net with comm := { s.net.comm with
          sent := s.net.comm.sent ++ [transport.datagram map reg item.toWord] } } }
  | ask (input : List UInt8) (reg : Reg) (next : Item → Client α)
      (reading : s.session = some (.read (.csr reg) next)) (idle : s.net.comm.reading = none)
      (r : Reading) (request : Sent)
      (addrs : r.addrs = [(map.addr reg).toNat])
      (kind : request.kind = .read (s.net.comm.counter + 1) r.addrs) : Move program s (.host input)
      { s with
        issued := s.clock
        net := { s.net with comm := { s.net.comm with
          counter := s.net.comm.counter + 1
          sent := s.net.comm.sent ++ [request]
          reading := some r } } }
  | retry (r r' : Reading) (reading : s.net.comm.reading = some r) (request : Sent)
      (same : r'.addrs = r.addrs)
      (kind : request.kind = .read (s.net.comm.counter + 1) r.addrs) : Move program s .timeout
      { s with net := { s.net with comm := { s.net.comm with
        counter := s.net.comm.counter + 1
        sent := s.net.comm.sent ++ [request]
        reading := some r' } } }
  | answer (reg : Reg) (next : Item → Client α) (session : s.session = some (.read (.csr reg) next))
      (r : Reading) (reading : s.net.comm.reading = some r) (datas : List UInt8)
      (audible : ReadSession.Audible transport.toCodec s.net datas) (values : List UInt32)
      (answers : replyValues transport.toCodec s.net.comm.counter datas = some values)
      (answer : Answer) (value : UInt32) (one : single (.returned answer) = some value)
      (returned : returnValue r.length values = some answer) : Move program s (.receive datas)
      { s with
        net := { s.net with comm := s.net.comm.finish r (.returned answer) }
        session := some (next (.word value.toNat))
        history := s.history ++ [⟨.read (.csr reg) (.word value.toNat), s.issued, s.clock⟩] }
  | abort (event : Event κ) (comm : Comm) (issued : Nat) (sent : comm.sent = s.net.comm.sent)
      (idle : comm.reading = none) (later : s.net.comm.counter ≤ comm.counter)
      (past : issued = s.issued ∨ issued = s.clock) : Move program s event
      { s with net := { s.net with comm := comm }, aborted := true, issued := issued }
  | execute (env : Cycle) (q : Sent) (oldest : s.net.comm.sent[s.head]? = some q)
      (x : Exec (Board rxDepth txDepth))
      (ran : eb8008Handle (csrBus map) q.bytes { s.board with env := env } = .ok x) :
      Move program s (.execute env)
      { s with
        head := s.head + 1
        net := { s.net with
          bus := x.bus
          executions := s.net.executions ++ [⟨q, x.accesses, x.reply⟩] } }
  | fault (env : Cycle) (q : Sent) (oldest : s.net.comm.sent[s.head]? = some q) (fault : Fault)
      (ran : eb8008Handle (csrBus map) q.bytes { s.board with env := env } = .error fault) :
      Move program s (.execute env)
      { s with head := s.head + 1, net := { s.net with bus := { s.board with env := env } } }
  | lose (q : Sent) (oldest : s.net.comm.sent[s.head]? = some q) :
      Move program s .lose { s with head := s.head + 1 }
  | calls (call : κ) (idle : s.session = none) :
      Move program s (.calls call) { s with session := some (program call) }
  | returns (value : α) (finished : s.session = some (.ret value)) :
      Move program s .returns { s with session := none, results := s.results ++ [value] }

variable {transport map}

/-- A step of the call that leaves no outcome. -/
theorem resume_going {s : Sys rxDepth txDepth α} {event : ReadSession.Event (Board rxDepth txDepth)}
    {net : ReadSession.Sys (Board rxDepth txDepth)}
    (stepped : ReadSession.step transport.toCodec (csrBus map) s.net event = net)
    (going : net.comm.finished = s.net.comm.finished) :
    s.resume transport map event = { s with net := net } := by
  subst stepped
  simp only [Sys.resume, Sys.network, going, List.drop_length]

/-- A step of the call that ends it. -/
theorem resume_over {s : Sys rxDepth txDepth α} {event : ReadSession.Event (Board rxDepth txDepth)}
    {net : ReadSession.Sys (Board rxDepth txDepth)} {r : Reading} {outcome : Outcome} {reg : Reg}
    {next : Item → Client α}
    (stepped : ReadSession.step transport.toCodec (csrBus map) s.net event = net)
    (answered : net.comm.finished = s.net.comm.finished ++ [(r, outcome)])
    (session : s.session = some (.read (.csr reg) next)) :
    s.resume transport map event = match single outcome with
      | some value => { s with
          net := net
          session := some (next (.word value.toNat))
          history := s.history ++ [⟨.read (.csr reg) (.word value.toNat), s.issued, s.clock⟩] }
      | none => { s with net := net, aborted := true } := by
  subst stepped
  simp only [Sys.resume, Sys.network, answered, List.drop_left, session]

theorem hostStep_moves (program : κ → Client α) (s : Sys rxDepth txDepth α) (input : List UInt8) :
    Move transport map program s (.host input) (hostStep transport map s input) := by
  unfold hostStep
  split
  next reg next reading =>
    split
    · exact .stay _
    next free =>
      have idle : s.net.comm.reading = none := by simpa using (not_or.mp free).2
      have stepped : ReadSession.step transport.toCodec (csrBus map) s.net
          (.call (map.addr reg).toNat (some 1)) = { s.net with
            comm := s.net.comm.begin transport.toCodec
              ⟨(map.addr reg).toNat, some 1, 0, [], s.net.executions.length⟩ } := by
        simp only [ReadSession.step, idle, Comm.read]
      rcases begin_cases transport.toCodec s.net.comm
        ⟨(map.addr reg).toNat, some 1, 0, [], s.net.executions.length⟩ with
        refused | ⟨request, kind, begun⟩
      · rw [refused] at stepped
        rw [resume_over (s := { s with issued := s.clock }) stepped rfl reading]
        exact .abort _ _ _ rfl rfl (Nat.le_succ _) (.inr rfl)
      · rw [begun] at stepped
        rw [resume_going (s := { s with issued := s.clock }) stepped rfl]
        exact .ask input reg next reading idle _ request (by simp [Reading.addrs]) kind
  next next reading => exact .stream input next reading
  next reg item next writing =>
    exact .write input reg item next writing
  next port item next other writing =>
    exact .print input port item next writing fun reg same => other reg same
  · exact .stay _

theorem timeout_moves (program : κ → Client α) {s : Sys rxDepth txDepth α}
    (asking : s.net.comm.reading.isSome → ∃ reg next, s.session = some (.read (.csr reg) next)) :
    Move transport map program s .timeout (s.resume transport map .timeout) := by
  cases reading : s.net.comm.reading with
  | none =>
    have stepped : ReadSession.step transport.toCodec (csrBus map) s.net .timeout = s.net := by
      simp only [ReadSession.step, reading]
    rw [resume_going stepped rfl]
    exact .stay _
  | some r =>
    obtain ⟨reg, next, session⟩ := asking (by simp [reading])
    have stepped : ReadSession.step transport.toCodec (csrBus map) s.net .timeout =
        { s.net with comm := s.net.comm.timeout transport.toCodec r } := by
      simp only [ReadSession.step, reading]
    by_cases last : r.tries = 10
    · rw [Comm.timeout, if_pos last] at stepped
      rw [resume_over stepped rfl session]
      exact .abort _ _ _ rfl rfl (Nat.le_refl _) (.inl rfl)
    · rw [Comm.timeout, if_neg last] at stepped
      rcases begin_cases transport.toCodec s.net.comm r with refused | ⟨request, kind, begun⟩
      · rw [refused] at stepped
        rw [resume_over stepped rfl session]
        exact .abort _ _ _ rfl rfl (Nat.le_succ _) (.inl rfl)
      · rw [begun] at stepped
        rw [resume_going stepped rfl]
        exact .retry r _ reading request rfl kind

theorem receive_moves (program : κ → Client α) {s : Sys rxDepth txDepth α}
    (asking : s.net.comm.reading.isSome → ∃ reg next, s.session = some (.read (.csr reg) next))
    (datas : List UInt8) :
    Move transport map program s (.receive datas) (s.resume transport map (.receive datas)) := by
  have still : ReadSession.step transport.toCodec (csrBus map) s.net (.receive datas) = s.net →
      Move transport map program s (.receive datas) (s.resume transport map (.receive datas)) := by
    intro stepped
    rw [resume_going stepped rfl]
    exact .stay _
  cases reading : s.net.comm.reading with
  | none => exact still (by simp only [ReadSession.step, reading])
  | some r =>
    obtain ⟨reg, next, session⟩ := asking (by simp [reading])
    by_cases audible : ReadSession.Audible transport.toCodec s.net datas
    · have stepped : ReadSession.step transport.toCodec (csrBus map) s.net (.receive datas) =
          { s.net with comm := s.net.comm.receive transport.toCodec r datas } := by
        simp only [ReadSession.step, reading, if_pos audible]
      cases answers : replyValues transport.toCodec s.net.comm.counter datas with
      | none =>
        rw [Comm.receive, answers] at stepped
        exact still stepped
      | some values =>
        cases returned : returnValue r.length values with
        | none =>
          simp only [Comm.receive, answers, returned] at stepped
          rw [resume_over stepped rfl session]
          exact .abort _ _ _ rfl rfl (Nat.le_refl _) (.inl rfl)
        | some answer =>
          simp only [Comm.receive, answers, returned] at stepped
          rw [resume_over stepped rfl session]
          cases one : single (.returned answer) with
          | none => exact .abort _ _ _ rfl rfl (Nat.le_refl _) (.inl rfl)
          | some value =>
            exact .answer reg next session r reading datas audible values answers answer value one
              returned
    · exact still (by simp only [ReadSession.step, reading, if_neg audible])

theorem execute_moves (program : κ → Client α) (s : Sys rxDepth txDepth α) (env : Cycle) :
    Move transport map program s (.execute env) (s.execute transport map env) := by
  unfold Sys.execute
  split
  next inside =>
    have oldest : s.net.comm.sent[s.head]? = some s.net.comm.sent[s.head] :=
      List.getElem?_eq_getElem inside
    generalize s.net.comm.sent[s.head] = q at oldest
    cases ran : eb8008Handle (csrBus map) q.bytes { s.board with env := env } with
    | ok x =>
      have moved : Move transport map program s (.execute env) _ := .execute env q oldest x ran
      simpa only [Sys.network, ReadSession.step, oldest, ran] using moved
    | error fault =>
      have moved : Move transport map program s (.execute env) _ := .fault env q oldest fault ran
      simpa only [Sys.network, ReadSession.step, oldest, ran] using moved
  · exact .stay _

theorem step_moves (program : κ → Client α) {s : Sys rxDepth txDepth α}
    (asking : s.net.comm.reading.isSome → ∃ reg next, s.session = some (.read (.csr reg) next))
    (event : Event κ) :
    Move transport map program s event (step transport map program s event) := by
  cases event with
  | cycle env => exact .edge env
  | host input => exact hostStep_moves program s input
  | timeout => exact timeout_moves program asking
  | receive datas => exact receive_moves program asking datas
  | execute env => exact execute_moves program s env
  | lose =>
    simp only [step]
    split
    next inside => exact .lose _ (List.getElem?_eq_getElem inside)
    · exact .stay _
  | calls call =>
    simp only [step]
    split
    · exact .calls call ‹_›
    · exact .stay _
  | returns =>
    simp only [step]
    split
    · exact .returns _ ‹_›
    · exact .stay _

/-! ## The network alone -/

theorem resume_net (s : Sys rxDepth txDepth α)
    (event : ReadSession.Event (Board rxDepth txDepth)) :
    (s.resume transport map event).net =
      ReadSession.step transport.toCodec (csrBus map) s.net event := by
  unfold Sys.resume
  dsimp only
  split
  · rfl
  · split <;> rfl
  · rfl

/-- A step takes at most one step of the network, up to what the clock does. -/
theorem step_net (program : κ → Client α) (s : Sys rxDepth txDepth α) (event : Event κ) :
    ∃ board event', (step transport map program s event).net =
      ReadSession.step transport.toCodec (csrBus map) { s.net with bus := board } event' := by
  have still : ∀ s' : Sys rxDepth txDepth α, s'.net = s.net → ∃ board event', s'.net =
      ReadSession.step transport.toCodec (csrBus map) { s.net with bus := board } event' :=
    fun s' same => ⟨s.board, .disturb s.board, same⟩
  cases event with
  | cycle env => exact ⟨s.board, .disturb (s.board.tick env), rfl⟩
  | host input =>
    simp only [step, hostStep]
    split
    · split
      · exact still _ rfl
      · exact ⟨s.board, _, resume_net _ _⟩
    · exact still _ rfl
    next reg item next writing =>
      exact ⟨s.board, .broadcast (transport.datagram map reg item.toWord), rfl⟩
    · exact still _ rfl
    · exact still _ rfl
  | timeout => exact ⟨s.board, _, resume_net _ _⟩
  | receive datas => exact ⟨s.board, _, resume_net _ _⟩
  | execute env =>
    simp only [step, Sys.execute]
    split
    · exact ⟨{ s.board with env := env }, .execute s.head, rfl⟩
    · exact still _ rfl
  | lose =>
    simp only [step]
    split <;> exact still _ rfl
  | calls call =>
    simp only [step]
    split <;> exact still _ rfl
  | returns =>
    simp only [step]
    split <;> exact still _ rfl

end

end Remote8008.System.WireSession
