import Remote8008.Guarantees.ReadFreshness
import Remote8008.Guarantees.WireMatches

/-!
# A session over datagrams is a session on the registers

host/b8008net/eb_server.py:78-115, firmware/eb8008.c:71-132, soc/console_bridge.py. Every
run of `System.WireSession` is matched by a run of `System.BridgeSession`, in which a read
takes its word from the registers at one instant. The instant is the execution of the
request whose reply the call accepts, and which one that is turns out only when the reply
comes in: until then the runs that read at an execution of the current attempt are kept
beside the run that has not read yet.
-/

namespace Remote8008.Guarantees.WireLinearizable
open Lib.Interaction Lib.Machine Source.ConsoleBridge Source.Console Source.ConsolePump
open Source.Eb8008 Source.EtherboneWire Source.EbServer System.WireSession
open System.BridgeSession (readCsr strobe quiet)
open ReadFreshness WireMatches

variable {rxDepth txDepth : Nat} {α κ : Type}

/-! ## The simulation -/

/-- The datagrams of a session. -/
def Ours (transport : Transport) (map : CsrMap) (q : Sent) : Prop :=
  (∃ id reg, q.kind = .read id [(map.addr reg).toNat]) ∨
    ∃ reg value, q = transport.datagram map reg value

/-- A word that the board has read for the current attempt. -/
def Answered (s : Sys rxDepth txDepth α) (value : UInt32) : Prop :=
  ∃ e ∈ s.net.executions, (∃ addrs, e.request.kind = .read s.net.comm.counter addrs) ∧
    ∃ address, e.accesses = [.read address value]

/-- A read in progress: its current attempt is the last datagram sent. -/
structure Asking (map : CsrMap) (s : Sys rxDepth txDepth α) (r : Reading) : Prop where
  session : ∃ reg next, s.session = some (.read (.csr reg) next) ∧
    r.addrs = [(map.addr reg).toNat]
  last : ∃ front request, s.net.comm.sent = front ++ [request] ∧
    request.kind = .read s.net.comm.counter r.addrs ∧
    ∀ q ∈ front, ∀ id addrs, q.kind = .read id addrs → id < s.net.comm.counter

/-- The operations of the history and a read of the call in progress. -/
def Ahead (history : List Span) (issued : Nat) (reg : Reg) (value : Nat)
    (stamps : List (Nat × Op Port Item)) : Prop :=
  ∃ earlier instant, stamps = earlier ++ [(instant, .read (.csr reg) (.word value))] ∧
    List.Forall₂ Within history earlier ∧ issued ≤ instant

/-- The environment of a session on the registers does only what `ok` allows. -/
def Direct (ok : Cycle → Prop) : System.BridgeSession.Event κ → Prop
  | .cycle env _ => ok env
  | .host _ | .lost | .calls _ | .returns => True

/-- A session on the registers of the bridge in state `b` comes to this. -/
def Abstract (ok : Cycle → Prop) (program : κ → Client α) (b : State rxDepth txDepth) :
    (System.BridgeSession.Sys rxDepth txDepth α → Prop) → Prop :=
  Reaches (System.BridgeSession.step program) (Direct ok) (System.BridgeSession.Sys.start b none)

structure Simulated (ok : Cycle → Prop) (transport : Transport) (map : CsrMap)
    (program : κ → Client α) (b : State rxDepth txDepth) (s : Sys rxDepth txDepth α) : Prop where
  bounded : s.head ≤ s.net.comm.sent.length
  ours : ∀ q ∈ s.net.comm.sent, Ours transport map q
  issued : s.issued ≤ s.clock
  asking : ∀ r, s.net.comm.reading = some r → Asking map s r
  plain : Abstract ok program b
    (Matches map s.board s.wire s.results s.session (List.Forall₂ Within s.history))
  ahead : ∀ reg next value, s.session = some (.read (.csr reg) next) →
    s.net.comm.reading.isSome = true → Answered s value → s.wire = [] ∧
      Abstract ok program b (Matches map s.board s.wire s.results (some (next (.word value.toNat)))
        (Ahead s.history s.issued reg value.toNat))

section
variable {ok : Cycle → Prop} {transport : Transport} {map : CsrMap} {program : κ → Client α}
  {b : State rxDepth txDepth} {s : Sys rxDepth txDepth α}

theorem Simulated.start (ok : Cycle → Prop) (transport : Transport) (map : CsrMap)
    (program : κ → Client α) (b : State rxDepth txDepth) :
    Simulated ok transport map program b (.start b) where
  bounded := Nat.zero_le _
  ours := by simp [Sys.start, System.ReadSession.Sys.start]
  issued := Nat.zero_le _
  asking := by simp [Sys.start, System.ReadSession.Sys.start]
  plain := .here ⟨rfl, rfl, rfl, rfl, rfl, .nil⟩
  ahead := by simp [Sys.start, System.ReadSession.Sys.start]

/-- Between reads the socket waits for nothing. -/
theorem Simulated.idle (sim : Simulated ok transport map program b s)
    (elsewhere : ∀ reg next, s.session ≠ some (.read (.csr reg) next)) :
    s.net.comm.reading = none := by
  cases reading : s.net.comm.reading with
  | none => rfl
  | some r =>
    obtain ⟨reg, next, session, -⟩ := (sim.asking r reading).session
    exact absurd session (elsewhere reg next)

theorem Simulated.wire_cons {q : Sent} (oldest : s.net.comm.sent[s.head]? = some q) :
    s.wire = q :: s.net.comm.sent.drop (s.head + 1) := by
  obtain ⟨inside, rfl⟩ := List.getElem?_eq_some_iff.mp oldest
  exact List.drop_eq_getElem_cons inside

theorem Simulated.wire_concat (sim : Simulated ok transport map program b s) (q : Sent) :
    (s.net.comm.sent ++ [q]).drop s.head = s.wire ++ [q] :=
  List.drop_append_of_le_length sim.bounded

/-- When the current attempt is the oldest datagram under way, it is the only one. -/
theorem Asking.alone {r : Reading} (asking : Asking map s r) {q : Sent}
    (oldest : s.net.comm.sent[s.head]? = some q) {addrs : List Nat}
    (kind : q.kind = .read s.net.comm.counter addrs) :
    s.net.comm.sent.drop (s.head + 1) = [] := by
  obtain ⟨front, request, sent, -, older⟩ := asking.last
  rw [sent] at oldest ⊢
  apply List.drop_eq_nil_of_le
  by_contra short
  have inside : s.head < front.length := by
    rw [List.length_append, List.length_singleton] at short
    omega
  rw [List.getElem?_append_left inside] at oldest
  have bound := older q (List.mem_of_getElem? oldest) _ addrs kind
  omega

/-- No reply answers an attempt that has just been sent. -/
theorem unanswered {bus : Bus (Board rxDepth txDepth)} (sound : Sound bus s.net) {value : UInt32}
    {s' : Sys rxDepth txDepth α} (executions : s'.net.executions = s.net.executions)
    (counter : s'.net.comm.counter = s.net.comm.counter + 1) : ¬ Answered s' value := by
  rintro ⟨e, member, ⟨addrs, kind⟩, -⟩
  rw [executions] at member
  have bound := sound.ids e.request (sound.ran e member).1 _ addrs kind
  omega

/-- A reply that is accepted is one of an execution of the current attempt. -/
theorem answered_of_reply (sound : Sound (csrBus map) s.net) {codec : Codec}
    (few : ∀ reg, s.net.comm.counter < (map.addr reg).toNat)
    (ours : ∀ q ∈ s.net.comm.sent, Ours transport map q) {datas : List UInt8}
    (audible : System.ReadSession.Audible codec s.net datas) {values : List UInt32}
    (answers : replyValues codec s.net.comm.counter datas = some values) :
    ∃ e ∈ s.net.executions, ∃ addrs, e.request.kind = .read s.net.comm.counter addrs ∧
      values.length = addrs.length ∧
      e.accesses = List.zipWith Access.read (addrs.map UInt32.ofNat) values := by
  have small : s.net.comm.counter < 2 ^ 32 :=
    (few .consoleRx).trans (map.addr .consoleRx).toNat_lt
  rcases audible with ⟨q, member, rfl⟩ | ⟨e, member, rfl, replied⟩ | noise
  · obtain ⟨base, kind, same⟩ := sent_answers answers
    rcases ours q member with ⟨id, reg, other⟩ | ⟨reg, value, rfl⟩
    · simp [other] at kind
    · obtain rfl : map.addr reg = base := by simpa [Transport.datagram] using kind
      exact absurd same (few reg).ne'
  · obtain ⟨inSent, b, x, ran, accesses, reply⟩ := sound.ran e member
    rw [← reply] at answers replied
    obtain ⟨id, addrs, kind, named, long, made⟩ := execution_answers _ ran replied answers
    have bound := sound.ids e.request inSent id addrs kind
    obtain rfl : id = s.net.comm.counter := by
      rw [UInt32.toNat_ofNat'] at named
      omega
    exact ⟨e, member, addrs, kind, long, accesses ▸ made⟩
  · simp [replyValues, noise] at answers

theorem within_concat {history : List Span} {stamps : List (Nat × Op Port Item)} {span : Span}
    {instant : Nat} (before : List.Forall₂ Within history stamps) (began : span.began ≤ instant)
    (ended : instant ≤ span.ended) :
    List.Forall₂ Within (history ++ [span]) (stamps ++ [(instant, span.op)]) :=
  List.rel_append before (.cons ⟨rfl, began, ended⟩ .nil)

theorem Simulated.edge (sim : Simulated ok transport map program b s) {env : Cycle}
    (fair : ok env) :
    Simulated ok transport map program b
      { s with net := { s.net with bus := s.board.tick env } } where
  bounded := sim.bounded
  ours := sim.ours
  issued := by
    refine sim.issued.trans ?_
    simp [Sys.clock, Sys.board, Board.tick]
  asking r reading := ⟨(sim.asking r reading).session, (sim.asking r reading).last⟩
  plain := sim.plain.next (.cycle env false) fair fun a same => same.tick env
  ahead reg next value session reading answered := by
    obtain ⟨empty, reaches⟩ := sim.ahead reg next value session reading answered
    exact ⟨empty, reaches.next (.cycle env false) fair fun a same => same.tick env⟩

/-- An operation on a stream. -/
theorem Simulated.perform (sim : Simulated ok transport map program b s)
    (idle : s.net.comm.reading = none) {o : Op Port Item} {next : Client α}
    (event : System.BridgeSession.Event κ) (fair : Direct ok event)
    (moves : ∀ a : System.BridgeSession.Sys rxDepth txDepth α, a.session = s.session →
      System.BridgeSession.step program a event =
        { a with session := some next, trace := a.trace ++ [.op o] }) :
    Simulated ok transport map program b (s.perform o next) where
  bounded := sim.bounded
  ours := sim.ours
  issued := sim.issued
  asking r reading := by simp [Sys.perform, idle] at reading
  plain := sim.plain.next event fair fun a same => by
    rw [moves a same.session]
    exact same.op same.flight fun stamps before => within_concat before le_rfl le_rfl
  ahead reg next value session reading := by simp [Sys.perform, idle] at reading

theorem Simulated.write (sim : Simulated ok transport map program b s) {reg : Reg} {item : Item}
    {next : Client α} (writing : s.session = some (.write (.csr reg) item next)) :
    Simulated ok transport map program b { s.perform (.write (.csr reg) item) next with
      net := { s.net with comm := { s.net.comm with
        sent := s.net.comm.sent ++ [transport.datagram map reg item.toWord] } } } := by
  have idle := sim.idle (by simp [writing])
  refine ⟨?_, ?_, sim.issued, fun r reading => ?_, ?_, fun _ _ _ _ reading => ?_⟩
  · exact sim.bounded.trans (by simp)
  · intro q member
    rcases List.mem_append.mp member with old | new
    · exact sim.ours q old
    · exact .inr ⟨reg, item.toWord, List.mem_singleton.mp new⟩
  · simp [idle] at reading
  · refine sim.plain.next (.host []) trivial fun a same => ?_
    have moved : System.BridgeSession.step program a (.host []) = { a with
        session := some next
        flight := a.flight ++ [(reg, item.toWord)]
        trace := a.trace ++ [.op (.write (.csr reg) item)] } := by
      simp only [System.BridgeSession.step, System.BridgeSession.hostStep, same.session, writing]
    rw [moved]
    refine same.op ?_ fun stamps before => within_concat before le_rfl le_rfl
    change _ = ((s.net.comm.sent ++ [_]).drop s.head).filterMap (carried map)
    rw [sim.wire_concat]
    simp [same.flight, carried_datagram]
  · simp [idle] at reading

/-- A request of a read, the first or a later one. -/
theorem Simulated.request (sim : Simulated ok transport map program b s)
    (sound : Sound (csrBus map) s.net) {reg : Reg} {next : Item → Client α}
    (session : s.session = some (.read (.csr reg) next)) {r : Reading} {request : Sent}
    (addrs : r.addrs = [(map.addr reg).toNat])
    (kind : request.kind = .read (s.net.comm.counter + 1) r.addrs) {issued : Nat}
    (past : issued ≤ s.clock) :
    Simulated ok transport map program b { s with
      issued := issued
      net := { s.net with comm := { s.net.comm with
        counter := s.net.comm.counter + 1
        sent := s.net.comm.sent ++ [request]
        reading := some r } } } := by
  refine ⟨?_, ?_, past, fun r' reading => ?_, ?_, fun reg next value session reading answered => ?_⟩
  · exact sim.bounded.trans (by simp)
  · intro q member
    rcases List.mem_append.mp member with old | new
    · exact sim.ours q old
    · rw [List.mem_singleton.mp new]
      exact .inl ⟨_, reg, addrs ▸ kind⟩
  · obtain rfl : r = r' := Option.some.inj reading
    refine ⟨⟨reg, next, session, addrs⟩, s.net.comm.sent, request, rfl, kind, ?_⟩
    intro q member id addrs kind
    exact Nat.lt_succ_of_le (sound.ids q member id addrs kind)
  · refine sim.plain.mono fun a same => ?_
    have asked := same.asked (carried_request map kind)
    rwa [← sim.wire_concat] at asked
  · exact absurd answered (unanswered sound rfl rfl)

theorem single_of_one {length : Option Nat} {word value : UInt32} {answer : Answer}
    (returned : returnValue length [word] = some answer)
    (one : single (.returned answer) = some value) : word = value := by
  cases length with
  | none =>
    obtain rfl : Answer.word word = answer := by simpa [returnValue] using returned
    simpa [single] using one
  | some length =>
    obtain rfl : Answer.words [word] = answer := by simpa [returnValue] using returned
    simpa [single] using one

theorem Simulated.answer (sim : Simulated ok transport map program b s)
    (sound : Sound (csrBus map) s.net)
    (few : ∀ reg, s.net.comm.counter < (map.addr reg).toNat) {reg : Reg} {next : Item → Client α}
    (session : s.session = some (.read (.csr reg) next)) {r : Reading}
    (reading : s.net.comm.reading = some r) {datas : List UInt8}
    (audible : System.ReadSession.Audible transport.toCodec s.net datas) {values : List UInt32}
    (answers : replyValues transport.toCodec s.net.comm.counter datas = some values)
    {answer : Answer} {value : UInt32} (one : single (.returned answer) = some value)
    (returned : returnValue r.length values = some answer) :
    Simulated ok transport map program b { s with
      net := { s.net with comm := s.net.comm.finish r (.returned answer) }
      session := some (next (.word value.toNat))
      history := s.history ++ [⟨.read (.csr reg) (.word value.toNat), s.issued, s.clock⟩] } := by
  obtain ⟨e, member, addrs, kind, long, made⟩ :=
    answered_of_reply sound few sim.ours audible answers
  obtain ⟨address, rfl⟩ : ∃ address, addrs = [address] := by
    rcases sim.ours _ (sound.ran e member).1 with ⟨id, reg, same⟩ | ⟨reg, value, same⟩
    · rw [same] at kind
      exact ⟨_, (Kind.read.inj kind).2.symm⟩
    · simp [same, Transport.datagram] at kind
  obtain ⟨word, rfl⟩ := List.length_eq_one_iff.mp long
  obtain rfl : word = value := single_of_one returned one
  have answered : Answered s word := ⟨e, member, ⟨_, kind⟩, _, made⟩
  refine ⟨sim.bounded, sim.ours, sim.issued, by simp [Comm.finish], ?_, by simp [Comm.finish]⟩
  obtain ⟨-, reaches⟩ := sim.ahead reg next word session (by simp [reading]) answered
  refine reaches.mono fun a same => ⟨same.bridge, same.edges, same.session, same.flight,
    same.results, ?_⟩
  obtain ⟨earlier, instant, stamps, before, since⟩ := same.stamps
  have past : instant ≤ s.clock := by
    have bound := stamped_le 0 a.trace (instant, .read (.csr reg) (.word word.toNat))
      (by rw [stamps]; simp)
    rwa [Nat.zero_add, same.clock] at bound
  rw [stamps]
  exact within_concat before since past

/-- The board takes a datagram other than the current attempt: the runs that have read for
the current attempt cannot be there yet. -/
theorem Simulated.advance (sim : Simulated ok transport map program b s) {q : Sent}
    (oldest : s.net.comm.sent[s.head]? = some q) {board : Board rxDepth txDepth}
    {executions : List System.ReadSession.Execution}
    (later : s.board.edges.length ≤ board.edges.length)
    (stale : s.net.comm.reading.isSome = true → ∀ value,
      Answered { s with net := { s.net with executions := executions } } value → Answered s value)
    (plain : Abstract ok program b (Matches map board (s.net.comm.sent.drop (s.head + 1)) s.results
      s.session (List.Forall₂ Within s.history))) :
    Simulated ok transport map program b { s with
      head := s.head + 1
      net := { s.net with bus := board, executions := executions } } where
  bounded := (List.getElem?_eq_some_iff.mp oldest).1
  ours := sim.ours
  issued := sim.issued.trans later
  asking r reading := ⟨(sim.asking r reading).session, (sim.asking r reading).last⟩
  plain := plain
  ahead reg next value session reading answered := by
    have empty := (sim.ahead reg next value session reading (stale reading value answered)).1
    rw [Simulated.wire_cons oldest] at empty
    simp at empty

/-- An execution of another datagram is no answer to the current attempt. -/
theorem Answered.earlier {e : System.ReadSession.Execution} {value : UInt32}
    (other : ∀ addrs, e.request.kind ≠ .read s.net.comm.counter addrs)
    (answered : Answered { s with net := { s.net with executions := s.net.executions ++ [e] } }
      value) : Answered s value := by
  obtain ⟨e', member, ⟨addrs, kind⟩, made⟩ := answered
  rcases List.mem_append.mp member with old | new
  · exact ⟨e', old, ⟨addrs, kind⟩, made⟩
  · rw [List.mem_singleton.mp new] at kind
    exact absurd kind (other addrs)

/-- A write of the host lands. -/
theorem Simulated.landed (sim : Simulated ok transport map program b s) {env : Cycle}
    (fair : ok env) {reg : Reg}
    {value : Nat} (oldest : s.net.comm.sent[s.head]? = some (transport.datagram map reg value))
    {x : Exec (Board rxDepth txDepth)}
    (ran : eb8008Handle (csrBus map) (transport.datagram map reg value).bytes
      { s.board with env := env } = .ok x) :
    Simulated ok transport map program b { s with
      head := s.head + 1
      net := { s.net with
        bus := x.bus
        executions := s.net.executions ++
          [⟨transport.datagram map reg value, x.accesses, x.reply⟩] } } := by
  obtain ⟨y, ran', bus⟩ := handle_datagram transport map reg value { s.board with env := env }
  obtain rfl : x = y := by simpa [ran] using ran'
  refine sim.advance oldest (by simp [bus, Board.tick]) (fun _ value answered => ?_) ?_
  · exact answered.earlier fun addrs => by simp [Transport.datagram]
  · refine sim.plain.next (.cycle env true) fair fun a same => ?_
    rw [Simulated.wire_cons oldest] at same
    rw [bus]
    exact (same.env env).lands (carried_datagram transport map reg value) env

/-- A request of an earlier call, or of an earlier attempt of this one. -/
theorem Simulated.staleRequest (sim : Simulated ok transport map program b s) {env : Cycle}
    {reg : Reg} (fair : ok (selected env reg)) {q : Sent}
    (oldest : s.net.comm.sent[s.head]? = some q) {id : Nat}
    (kind : q.kind = .read id [(map.addr reg).toNat])
    (old : s.net.comm.reading.isSome = true → id ≠ s.net.comm.counter)
    {x : Exec (Board rxDepth txDepth)} (bus : x.bus =
      Board.tick { s.board with env := env } (selected env reg)) :
    Simulated ok transport map program b { s with
      head := s.head + 1
      net := { s.net with
        bus := x.bus
        executions := s.net.executions ++ [⟨q, x.accesses, x.reply⟩] } } := by
  refine sim.advance oldest (by simp [bus, Board.tick]) (fun reading value answered => ?_) ?_
  · refine answered.earlier fun addrs same => ?_
    rw [kind] at same
    exact old reading (Kind.read.inj same).1
  · refine sim.plain.next (.cycle (selected env reg) false) fair fun a same => ?_
    rw [Simulated.wire_cons oldest] at same
    rw [bus]
    exact ((same.env env).idle (carried_request map kind)).tick _

/-- The current attempt is executed: from here on there is a run that has read. -/
theorem Simulated.currentRequest (sim : Simulated ok transport map program b s)
    (sound : Sound (csrBus map) s.net) {env : Cycle} {reg : Reg} (fair : ok (selected env reg))
    {q : Sent} (oldest : s.net.comm.sent[s.head]? = some q)
    (kind : q.kind = .read s.net.comm.counter [(map.addr reg).toNat]) {r : Reading}
    (reading : s.net.comm.reading = some r) {x : Exec (Board rxDepth txDepth)}
    (bus : x.bus = Board.tick { s.board with env := env } (selected env reg))
    (made : x.accesses = [.read (map.addr reg) (UInt32.ofNat (readCsr s.board.bridge reg))]) :
    Simulated ok transport map program b { s with
      head := s.head + 1
      net := { s.net with
        bus := x.bus
        executions := s.net.executions ++ [⟨q, x.accesses, x.reply⟩] } } := by
  have asking := sim.asking r reading
  have alone := asking.alone oldest kind
  have wire : s.wire = [q] := by rw [Simulated.wire_cons oldest, alone]
  have bare : s.wire.filterMap (carried map) = [] := by simp [wire, carried_request map kind]
  have ticked : ∀ {session : Option (Client α)} {goal : List (Nat × Op Port Item) → Prop}
      {a : System.BridgeSession.Sys rxDepth txDepth α},
      Matches map s.board s.wire s.results session goal a →
      Matches map x.bus (s.net.comm.sent.drop (s.head + 1)) s.results session goal
        (System.BridgeSession.step program a (.cycle (selected env reg) false)) := by
    intro session goal a same
    rw [Simulated.wire_cons oldest] at same
    rw [bus]
    exact ((same.env env).idle (carried_request map kind)).tick _
  refine ⟨(List.getElem?_eq_some_iff.mp oldest).1, sim.ours, ?_, fun r reading => ?_, ?_, ?_⟩
  · refine sim.issued.trans ?_
    simp [Sys.clock, Sys.board, bus, Board.tick]
  · exact ⟨(sim.asking r reading).session, (sim.asking r reading).last⟩
  · exact sim.plain.next (.cycle (selected env reg) false) fair fun a same => ticked same
  · intro reg' next value session _ answered
    refine ⟨alone, ?_⟩
    replace session : s.session = some (.read (.csr reg') next) := session
    -- the read in progress is of the register that was asked for
    obtain ⟨asked, next', session', addrs⟩ := asking.session
    obtain ⟨rfl, rfl⟩ : reg' = asked ∧ next = next' := by simpa [session] using session'
    obtain rfl : reg = reg' := by
      have current := ((sound.underway r reading).current q (List.mem_of_getElem? oldest) _ kind).2
      rw [addrs] at current
      exact map.distinct reg reg' (UInt32.toNat_inj.mp (by simpa using current))
    -- and the word is that of this execution
    have word : value = UInt32.ofNat (readCsr s.board.bridge reg) := by
      obtain ⟨e, member, current, address, accesses⟩ := answered
      rcases List.mem_append.mp member with old | new
      · have empty := (sim.ahead reg next value session (by simp [reading])
          ⟨e, old, current, address, accesses⟩).1
        simp [wire] at empty
      · rw [List.mem_singleton.mp new, made] at accesses
        simp only [List.cons.injEq, Access.read.injEq, and_true] at accesses
        exact accesses.2.symm
    have exact' : value.toNat = readCsr s.board.bridge reg := by
      rw [word, UInt32.toNat_ofNat', Nat.mod_eq_of_lt (readCsr_lt _ _)]
    rw [exact']
    refine (sim.plain.next (.host []) trivial fun a same => ?_).next
      (.cycle (selected env reg) false) fair fun a same => ticked same
    rw [session] at same
    exact same.read bare fun stamps before => ⟨stamps, _, rfl, before, sim.issued⟩

theorem Simulated.execute (sim : Simulated ok transport map program b s)
    (sound : Sound (csrBus map) s.net) {env : Cycle} (fair : ok env)
    (selects : ∀ env reg, ok env → ok (selected env reg)) {q : Sent}
    (oldest : s.net.comm.sent[s.head]? = some q) {x : Exec (Board rxDepth txDepth)}
    (ran : eb8008Handle (csrBus map) q.bytes { s.board with env := env } = .ok x) :
    Simulated ok transport map program b { s with
      head := s.head + 1
      net := { s.net with
        bus := x.bus
        executions := s.net.executions ++ [⟨q, x.accesses, x.reply⟩] } } := by
  rcases sim.ours q (List.mem_of_getElem? oldest) with ⟨id, reg, kind⟩ | ⟨reg, value, rfl⟩
  · obtain ⟨y, ran', bus, made⟩ := handle_request map kind { s.board with env := env }
    obtain rfl : x = y := by simpa [ran] using ran'
    cases reading : s.net.comm.reading with
    | none => exact sim.staleRequest (selects env reg fair) oldest kind (by simp [reading]) bus
    | some r =>
      by_cases current : id = s.net.comm.counter
      · subst current
        exact sim.currentRequest sound (selects env reg fair) oldest kind reading bus made
      · exact sim.staleRequest (selects env reg fair) oldest kind (fun _ => current) bus
  · exact sim.landed fair oldest ran

theorem Simulated.lose (sim : Simulated ok transport map program b s) {q : Sent}
    (oldest : s.net.comm.sent[s.head]? = some q) :
    Simulated ok transport map program b { s with head := s.head + 1 } := by
  refine sim.advance oldest le_rfl (fun _ _ answered => answered) ?_
  rcases sim.ours q (List.mem_of_getElem? oldest) with ⟨id, reg, kind⟩ | ⟨reg, value, rfl⟩
  · refine sim.plain.mono fun a same => ?_
    rw [Simulated.wire_cons oldest] at same
    exact same.idle (carried_request map kind)
  · refine sim.plain.next .lost trivial fun a same => ?_
    rw [Simulated.wire_cons oldest] at same
    exact same.lost (carried_datagram transport map reg value)

theorem Simulated.step (sim : Simulated ok transport map program b s)
    (sound : Sound (csrBus map) s.net) (few : ∀ reg, s.net.comm.counter < (map.addr reg).toNat)
    (selects : ∀ env reg, ok env → ok (selected env reg)) {event : Event κ}
    (fair : ∀ env, event.env? = some env → ok env) {s' : Sys rxDepth txDepth α}
    (move : Move transport map program s event s') :
    Simulated ok transport map program b s' := by
  cases move with
  | stay => exact sim
  | edge env => exact sim.edge (fair env rfl)
  | stream input next reading =>
    refine sim.perform (sim.idle (by simp [reading])) (.host input) trivial fun a session => ?_
    simp only [System.BridgeSession.step, System.BridgeSession.hostStep, session, reading]
  | print input port item next writing other =>
    refine sim.perform (sim.idle (by simp [writing])) (.host []) trivial fun a session => ?_
    cases port with
    | csr reg => exact absurd rfl (other reg)
    | _ => simp only [System.BridgeSession.step, System.BridgeSession.hostStep, session, writing]
  | write input reg item next writing => exact sim.write writing
  | ask input reg next reading idle r request addrs kind =>
    exact sim.request sound reading addrs kind le_rfl
  | retry r r' reading request same kind =>
    obtain ⟨reg, next, session, addrs⟩ := (sim.asking r reading).session
    exact sim.request sound session (same.trans addrs) (same ▸ kind) sim.issued
  | answer reg next session r reading datas audible values answers answer value one returned =>
    exact sim.answer sound few session reading audible answers one returned
  | abort event comm issued sent idle later past =>
    refine ⟨by rw [sent]; exact sim.bounded, by rw [sent]; exact sim.ours, ?_, by simp [idle], ?_,
      by simp [idle]⟩
    · rcases past with rfl | rfl
      · exact sim.issued
      · exact le_rfl
    · refine sim.plain.mono fun a same => ⟨same.bridge, same.edges, same.session, ?_,
        same.results, same.stamps⟩
      change _ = (comm.sent.drop s.head).filterMap (carried map)
      rw [sent]
      exact same.flight
  | execute env q oldest x ran => exact sim.execute sound (fair env rfl) selects oldest ran
  | fault env q oldest fault ran =>
    rcases sim.ours q (List.mem_of_getElem? oldest) with ⟨id, reg, kind⟩ | ⟨reg, value, rfl⟩
    · obtain ⟨x, ran', -⟩ := handle_request map kind { s.board with env := env }
      simp [ran] at ran'
    · obtain ⟨x, ran', -⟩ := handle_datagram transport map reg value { s.board with env := env }
      simp [ran] at ran'
  | lose q oldest => exact sim.lose oldest
  | calls call idle =>
    have waiting := sim.idle (by simp [idle])
    refine ⟨sim.bounded, sim.ours, sim.issued, by simp [waiting], ?_, by simp [waiting]⟩
    refine sim.plain.next (.calls call) trivial fun a same => ?_
    simp only [System.BridgeSession.step, same.session, idle]
    have edges : edgesOf (a.trace ++ [.called]) = s.board.edges := by simp [same.edges]
    exact ⟨same.bridge, edges, rfl, same.flight, by simp [same.results],
      by simpa [stamped_append, stamped] using same.stamps⟩
  | returns value finished =>
    have waiting := sim.idle (by simp [finished])
    refine ⟨sim.bounded, sim.ours, sim.issued, by simp [waiting], ?_, by simp [waiting]⟩
    refine sim.plain.next .returns trivial fun a same => ?_
    simp only [System.BridgeSession.step, same.session, finished]
    have edges : edgesOf (a.trace ++ [.returned value]) = s.board.edges := by simp [same.edges]
    exact ⟨same.bridge, edges, rfl, same.flight, by simp [same.results],
      by simpa [stamped_append, stamped] using same.stamps⟩

/-! ## Whole runs -/

theorem sound_step (sound : Sound (csrBus map) s.net)
    (ours : ∀ q ∈ s.net.comm.sent, Ours transport map q)
    (few : ∀ reg, s.net.comm.counter < (map.addr reg).toNat) (event : Event κ) :
    Sound (csrBus map) (step transport map program s event).net := by
  have small : s.net.comm.counter < 2 ^ 32 :=
    (few .consoleRx).trans (map.addr .consoleRx).toNat_lt
  have apart : Apart s.net := by
    intro q member
    rcases ours q member with ⟨id, reg, kind⟩ | ⟨reg, value, rfl⟩
    · simp [kind, writeBase]
    · simpa [Transport.datagram, writeBase] using (few reg).ne'
  obtain ⟨board, event', stepped⟩ := step_net program s event
  rw [stepped]
  have ticked : System.ReadSession.Move transport.toCodec (csrBus map) s.net
      { s.net with bus := board } := .disturb board
  exact (sound.step small apart ticked).step small apart
    (System.ReadSession.step_moves _ _ _ event')

theorem counter_le_step (event : Event κ) :
    s.net.comm.counter ≤ (step transport map program s event).net.comm.counter := by
  obtain ⟨board, event', stepped⟩ := step_net program s event
  rw [stepped]
  have bound := counter_le_move (System.ReadSession.step_moves transport.toCodec (csrBus map)
    { s.net with bus := board } event')
  exact bound

theorem counter_le_steps (transport : Transport) (map : CsrMap) (program : κ → Client α)
    (s : Sys rxDepth txDepth α) (events : List (Event κ)) :
    s.net.comm.counter ≤ (run (step transport map program) s events).net.comm.counter := by
  apply run_invariant (fun v => s.net.comm.counter ≤ v.net.comm.counter) (fun _ => True) ?_ events
    (fun _ _ => trivial) s le_rfl
  exact fun v event _ bound => bound.trans (counter_le_step event)

theorem simulated_run (transport : Transport) (map : CsrMap) (program : κ → Client α)
    (b : State rxDepth txDepth) (events : List (Event κ))
    (few : ∀ reg, (run (step transport map program) (.start b) events).net.comm.counter <
      (map.addr reg).toNat)
    (ok : Cycle → Prop) (selects : ∀ env reg, ok env → ok (selected env reg))
    (fair : ∀ event ∈ events, ∀ env, event.env? = some env → ok env) :
    Simulated ok transport map program b (run (step transport map program) (.start b) events) := by
  have both := run_invariant_under
    (fun s => Sound (csrBus map) s.net ∧ Simulated ok transport map program b s)
    (fun s => ∀ reg, s.net.comm.counter < (map.addr reg).toNat)
    (fun event => ∀ env, event.env? = some env → ok env)
    (fun s event fair few inv => ⟨sound_step inv.1 inv.2.ours few event,
      inv.2.step inv.1 few selects fair (step_moves program (fun reading => ?_) event)⟩)
    events fair (.start b) ?_ ⟨?_, .start ..⟩
  · exact both.2
  · obtain ⟨r, some⟩ := Option.isSome_iff_exists.mp reading
    obtain ⟨reg, next, session, -⟩ := (inv.2.asking r some).session
    exact ⟨reg, next, session⟩
  · intro n reg
    have later := counter_le_steps transport map program
      (run (step transport map program) (.start b) (events.take n)) (events.drop n)
    rw [← run_append, List.take_append_drop] at later
    exact later.trans_lt (few reg)
  · exact ⟨by simp [Sys.start, System.ReadSession.Sys.start],
      by simp [Sys.start, System.ReadSession.Sys.start],
      by simp [Sys.start, System.ReadSession.Sys.start],
      by simp [Sys.start, System.ReadSession.Sys.start]⟩

end

/-- The record grammar itself, as a transport. -/
def wireTransport : Transport where
  toCodec := wireCodec
  encodeWrite base value := encode ⟨0x10, 0x44, 0⟩ [⟨0, 0x0f, some (.single base value), none⟩]
  wrote _ _ := ⟨_, _, ⟨rfl, by decide, by decide⟩, rfl, rfl, rfl⟩

/-- Six words in a row. -/
def bankMap : CsrMap where
  addr
    | .consoleRx => 0xf0000000
    | .consoleRxPop => 0xf0000004
    | .consoleTx => 0xf0000008
    | .consoleTxData => 0xf000000c
    | .consoleErr => 0xf0000010
    | .consoleErrClear => 0xf0000014
  distinct reg reg' same := by
    cases reg <;> cases reg' <;> first | rfl | exact absurd same (by decide)

end Remote8008.Guarantees.WireLinearizable
