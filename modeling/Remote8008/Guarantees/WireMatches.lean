import Mathlib.Data.List.Forall2
import Remote8008.Guarantees.EtherboneReply
import Remote8008.System.WireSession

/-!
# What a session over datagrams and one on the registers share

firmware/eb8008.c:71-132 on the datagrams of `System.WireSession`: a write datagram is one
strobe of the bridge and a request one read of a register. `Matches` says when a state of
`System.BridgeSession` stands for the board, the datagrams under way and the results of
the calls so far; there is one lemma for each way both can go on.
-/

namespace Remote8008.Guarantees.WireMatches
open Lib.Interaction Lib.Machine Source.ConsoleBridge Source.Console Source.ConsolePump
open Source.Eb8008 Source.EtherboneWire Source.EbServer System.WireSession
open System.BridgeSession (Obs readCsr strobe)
open EtherbonePacket EtherboneReply

variable {rxDepth txDepth : Nat} {α κ : Type}

/-! ## The server on the datagrams of a session -/

theorem CsrMap.reg?_addr (map : CsrMap) (reg : Reg) : map.reg? (map.addr reg) = some reg := by
  have member : reg ∈ registers := by cases reg <;> decide
  unfold CsrMap.reg?
  cases found : registers.find? fun other => map.addr other = map.addr reg with
  | none => simpa using List.find?_eq_none.mp found reg member
  | some other =>
    have same := List.find?_some found
    rw [map.distinct other reg (by simpa using same)]

/-- The write that a datagram carries to the bank. -/
def carried (map : CsrMap) (q : Sent) : Option (Reg × UInt32) := do
  let (_, records) ← decode q.bytes
  let record ← records.head?
  let section' ← record.writes
  let reg ← map.reg? section'.head
  let value ← section'.items.head?
  return (reg, value)

theorem carried_datagram (transport : Transport) (map : CsrMap) (reg : Reg) (value : Nat) :
    carried map (transport.datagram map reg value) = some (reg, UInt32.ofNat value) := by
  obtain ⟨h, r, -, bytes, -, writes⟩ := transport.wrote (map.addr reg) (UInt32.ofNat value)
  simp [carried, Transport.datagram, bytes, decode_encode, writes, Section.single,
    CsrMap.reg?_addr]

theorem carried_request (map : CsrMap) {q : Sent} {id : Nat} {addrs : List Nat}
    (kind : q.kind = .read id addrs) : carried map q = none := by
  have speaks := q.speaks
  rw [kind] at speaks
  obtain ⟨h, r, -, bytes, writeless, -⟩ := speaks
  simp [carried, bytes, decode_encode, writeless]

theorem handle_datagram (transport : Transport) (map : CsrMap) (reg : Reg) (value : Nat)
    (b : Board rxDepth txDepth) :
    ∃ x, eb8008Handle (csrBus map) (transport.datagram map reg value).bytes b = .ok x ∧
      x.bus = b.tick (strobe b.env (UInt32.ofNat value).toNat reg) := by
  change ∃ x, eb8008Handle (csrBus map) (transport.encodeWrite _ (UInt32.ofNat value)) b = _ ∧ _
  generalize UInt32.ofNat value = word
  obtain ⟨h, r, clear, bytes, readless, writes⟩ := transport.wrote (map.addr reg) word
  obtain ⟨x, ran, rel⟩ := eb8008Handle_packet (csrBus map) clear.pf [r] b
  have only : [r].flatMap sectionsOf = [.writes (.single (map.addr reg) word)] := by
    simp [sectionsOf, writes, readless]
  refine ⟨x, by rw [bytes, ran], ?_⟩
  rw [rel.bus, only]
  simp [performAll, View.perform, View.writeAll, View.write, Section.single, csrBus,
    CsrMap.reg?_addr]

theorem strobe_congr {value value' : Nat} (same : UInt32.ofNat value = UInt32.ofNat value')
    (c : Cycle) (reg : Reg) : strobe c value reg = strobe c value' reg := by
  cases reg <;> simp only [strobe, same]

theorem handle_request (map : CsrMap) {q : Sent} {id : Nat} {reg : Reg}
    (kind : q.kind = .read id [(map.addr reg).toNat]) (b : Board rxDepth txDepth) :
    ∃ x, eb8008Handle (csrBus map) q.bytes b = .ok x ∧ x.bus = b.tick (selected b.env reg) ∧
      x.accesses = [.read (map.addr reg) (UInt32.ofNat (readCsr b.bridge reg))] := by
  have speaks := q.speaks
  rw [kind] at speaks
  obtain ⟨h, r, clear, bytes, writeless, asks⟩ := speaks
  cases reads : r.reads with
  | none => simp [reads, Asks] at asks
  | some t =>
    rw [reads] at asks
    obtain ⟨x, ran, rel⟩ := eb8008Handle_packet (csrBus map) clear.pf [r] b
    have items : t.items = [map.addr reg] := by simpa using asks.2
    have only : [r].flatMap sectionsOf = [.reads t] := by simp [sectionsOf, writeless, reads]
    refine ⟨x, by rw [bytes]; exact ran, ?_, ?_⟩
    · rw [rel.bus, only]
      simp [performAll, View.perform, View.readAll, View.read, items, csrBus, CsrMap.reg?_addr]
    · rw [rel.accesses, only]
      simp [performAll, View.perform, View.readAll, View.read, items, csrBus, CsrMap.reg?_addr]

theorem readCsr_lt (s : State rxDepth txDepth) (reg : Reg) : readCsr s reg < 2 ^ 32 := by
  have bit : ∀ b : Bool, b.toNat ≤ 1 := fun b => by cases b <;> decide
  cases reg with
  | consoleRx =>
    have data := s.consoleRx.data.toNat_lt
    have valid := bit s.consoleRx.valid
    have level : s.consoleRx.level < 2 ^ 13 := by
      unfold State.consoleRx
      split
      · exact Nat.mod_lt _ (by decide)
      · decide
    simp only [readCsr, ConsoleRx.word]
    omega
  | consoleTx =>
    have full := bit s.consoleTx.full
    have level : s.consoleTx.level < 2 ^ 9 := Nat.mod_lt _ (by decide)
    simp only [readCsr, ConsoleTx.word]
    omega
  | consoleErr =>
    have b0 := bit (s.sticky 0)
    have b1 := bit (s.sticky 1)
    have b2 := bit (s.sticky 2)
    simp only [readCsr, errWord]
    omega
  | consoleRxPop => simp [readCsr]
  | consoleTxData => simp [readCsr]
  | consoleErrClear => simp [readCsr]

/-! ## What two runs have in common -/

def Obs.edge? : Obs rxDepth txDepth α → Option (State rxDepth txDepth × Cycle)
  | .edge s c => some (s, c)
  | .op _ | .called | .returned _ => none

def Obs.result? : Obs rxDepth txDepth α → Option α
  | .returned value => some value
  | .edge _ _ | .op _ | .called => none

def edgesOf (trace : List (Obs rxDepth txDepth α)) : List (State rxDepth txDepth × Cycle) :=
  trace.filterMap Obs.edge?

def resultsOf (trace : List (Obs rxDepth txDepth α)) : List α := trace.filterMap Obs.result?

/-- The operations, each with the number of edges before it. -/
def stamped : Nat → List (Obs rxDepth txDepth α) → List (Nat × Op Port Item)
  | _, [] => []
  | n, .edge _ _ :: rest => stamped (n + 1) rest
  | n, .op o :: rest => (n, o) :: stamped n rest
  | n, .called :: rest => stamped n rest
  | n, .returned _ :: rest => stamped n rest

@[simp] theorem edgesOf_nil : edgesOf ([] : List (Obs rxDepth txDepth α)) = [] := rfl

@[simp] theorem edgesOf_edge (s : State rxDepth txDepth) (c : Cycle)
    (rest : List (Obs rxDepth txDepth α)) : edgesOf (.edge s c :: rest) = (s, c) :: edgesOf rest :=
  rfl

@[simp] theorem edgesOf_op (o : Op Port Item) (rest : List (Obs rxDepth txDepth α)) :
    edgesOf (.op o :: rest) = edgesOf rest := rfl

@[simp] theorem edgesOf_called (rest : List (Obs rxDepth txDepth α)) :
    edgesOf (.called :: rest) = edgesOf rest := rfl

@[simp] theorem edgesOf_returned (value : α) (rest : List (Obs rxDepth txDepth α)) :
    edgesOf (.returned value :: rest) = edgesOf rest := rfl

@[simp] theorem edgesOf_append (first second : List (Obs rxDepth txDepth α)) :
    edgesOf (first ++ second) = edgesOf first ++ edgesOf second := by simp [edgesOf]

@[simp] theorem resultsOf_edge (s : State rxDepth txDepth) (c : Cycle) :
    resultsOf [(.edge s c : Obs rxDepth txDepth α)] = [] := rfl

@[simp] theorem resultsOf_op (o : Op Port Item) :
    resultsOf [(.op o : Obs rxDepth txDepth α)] = [] := rfl

@[simp] theorem resultsOf_called : resultsOf [(.called : Obs rxDepth txDepth α)] = [] := rfl

@[simp] theorem resultsOf_returned (value : α) :
    resultsOf [(.returned value : Obs rxDepth txDepth α)] = [value] := rfl

@[simp] theorem resultsOf_append (first second : List (Obs rxDepth txDepth α)) :
    resultsOf (first ++ second) = resultsOf first ++ resultsOf second := by simp [resultsOf]

theorem stamped_append (n : Nat) (first second : List (Obs rxDepth txDepth α)) :
    stamped n (first ++ second) =
      stamped n first ++ stamped (n + (edgesOf first).length) second := by
  induction first generalizing n with
  | nil => rfl
  | cons obs rest ih =>
    cases obs with
    | edge s c =>
      rw [List.cons_append, stamped, stamped, ih, edgesOf_edge, List.length_cons,
        Nat.add_right_comm, Nat.add_assoc]
    | op o => simp [stamped, ih]
    | called => simp [stamped, ih]
    | returned value => simp [stamped, ih]

theorem stamped_le (n : Nat) (trace : List (Obs rxDepth txDepth α)) :
    ∀ stamp ∈ stamped n trace, stamp.1 ≤ n + (edgesOf trace).length := by
  induction trace generalizing n with
  | nil => simp [stamped]
  | cons obs rest ih =>
    intro stamp member
    cases obs with
    | edge s c =>
      have bound := ih (n + 1) stamp member
      rw [edgesOf_edge, List.length_cons]
      omega
    | op o =>
      rcases List.mem_cons.mp member with rfl | later
      · exact Nat.le_add_right _ _
      · exact ih n stamp later
    | called => exact ih n stamp member
    | returned value => exact ih n stamp member

/-- The operation of the span, at an instant within it. -/
def Within (span : Span) (stamp : Nat × Op Port Item) : Prop :=
  span.op = stamp.2 ∧ span.began ≤ stamp.1 ∧ stamp.1 ≤ span.ended

/-- The state of a session on the registers, as far as the board, the datagrams under way
and the results of the calls determine it. `goal` speaks of the operations so far. -/
structure Matches (map : CsrMap) (board : Board rxDepth txDepth) (wire : List Sent)
    (results : List α) (session : Option (Client α))
    (goal : List (Nat × Op Port Item) → Prop) (a : System.BridgeSession.Sys rxDepth txDepth α) :
    Prop where
  bridge : a.bridge = board.bridge
  edges : edgesOf a.trace = board.edges
  session : a.session = session
  flight : a.flight.map (fun write => (write.1, UInt32.ofNat write.2)) =
    wire.filterMap (carried map)
  results : resultsOf a.trace = results
  stamps : goal (stamped 0 a.trace)

section
variable {program : κ → Client α} {map : CsrMap} {board : Board rxDepth txDepth}
  {wire : List Sent} {results : List α} {session : Option (Client α)}
  {goal goal' : List (Nat × Op Port Item) → Prop}
  {a : System.BridgeSession.Sys rxDepth txDepth α}

theorem Matches.clock (same : Matches map board wire results session goal a) :
    (edgesOf a.trace).length = board.edges.length := by rw [same.edges]

/-- An edge without a write of the host. -/
theorem Matches.tick (same : Matches map board wire results session goal a) (c : Cycle) :
    Matches map (board.tick c) wire results session goal
      (System.BridgeSession.step program a (.cycle c false)) where
  bridge := congrArg (State.step · c) same.bridge
  edges := by
    simp [System.BridgeSession.step, System.BridgeSession.wires, Board.tick, same.edges,
      same.bridge]
  session := same.session
  flight := same.flight
  results := by
    simp [System.BridgeSession.step, same.results]
  stamps := by
    simp only [System.BridgeSession.step, stamped_append, stamped, List.append_nil]
    exact same.stamps

/-- The write in front of the flight is the one that the oldest datagram carries. -/
theorem Matches.first {q : Sent} {rest : List Sent} {reg : Reg} {word : UInt32}
    (same : Matches map board (q :: rest) results session goal a)
    (carries : carried map q = some (reg, word)) :
    ∃ value flight, a.flight = (reg, value) :: flight ∧ UInt32.ofNat value = word ∧
      flight.map (fun write => (write.1, UInt32.ofNat write.2)) = rest.filterMap (carried map) := by
  have flight := same.flight
  rw [List.filterMap_cons_some carries, List.map_eq_cons_iff] at flight
  obtain ⟨⟨reg', value⟩, flight, first, equal, others⟩ := flight
  obtain ⟨rfl, rfl⟩ : reg' = reg ∧ UInt32.ofNat value = word := by simpa using equal
  exact ⟨value, flight, first, rfl, others⟩

/-- The edge on which a write of the host lands. -/
theorem Matches.lands {q : Sent} {rest : List Sent} {reg : Reg} {word : UInt32}
    (same : Matches map board (q :: rest) results session goal a)
    (carries : carried map q = some (reg, word)) (c : Cycle) :
    Matches map (board.tick (strobe c word.toNat reg)) rest results session goal
      (System.BridgeSession.step program a (.cycle c true)) := by
  obtain ⟨value, flight, first, rfl, others⟩ := same.first carries
  have strobed : strobe c (UInt32.ofNat value).toNat reg = strobe c value reg :=
    strobe_congr UInt32.ofNat_toNat c reg
  have stepped : System.BridgeSession.step program a (.cycle c true) = { a with
      bridge := a.bridge.step (strobe c value reg)
      flight := flight
      trace := a.trace ++ [.edge a.bridge (strobe c value reg)] } := by
    simp only [System.BridgeSession.step, System.BridgeSession.wires, first]
  rw [stepped, strobed]
  refine ⟨?_, ?_, same.session, others, ?_, ?_⟩
  · simp [Board.tick, same.bridge]
  · simp [Board.tick, same.edges, same.bridge]
  · simp [same.results]
  · simpa [stamped_append, stamped] using same.stamps

theorem Matches.lost {q : Sent} {rest : List Sent} {reg : Reg} {word : UInt32}
    (same : Matches map board (q :: rest) results session goal a)
    (carries : carried map q = some (reg, word)) :
    Matches map board rest results session goal (System.BridgeSession.step program a .lost) := by
  obtain ⟨value, flight, first, -, others⟩ := same.first carries
  refine ⟨same.bridge, same.edges, same.session, ?_, same.results, same.stamps⟩
  rw [System.BridgeSession.step, first]
  exact others

/-- A datagram that carries no write is not in flight. -/
theorem Matches.idle {q : Sent} {rest : List Sent}
    (same : Matches map board (q :: rest) results session goal a)
    (bare : carried map q = none) : Matches map board rest results session goal a :=
  ⟨same.bridge, same.edges, same.session, by rw [same.flight, List.filterMap_cons_none bare],
    same.results, same.stamps⟩

theorem Matches.asked (same : Matches map board wire results session goal a) {q : Sent}
    (bare : carried map q = none) : Matches map board (wire ++ [q]) results session goal a :=
  ⟨same.bridge, same.edges, same.session, by simp [same.flight, bare], same.results, same.stamps⟩

/-- What the next access will meet does not matter yet. -/
theorem Matches.env (same : Matches map board wire results session goal a) (env : Cycle) :
    Matches map { board with env := env } wire results session goal a :=
  ⟨same.bridge, same.edges, same.session, same.flight, same.results, same.stamps⟩

/-- An operation of the host, at the present instant. -/
theorem Matches.op (same : Matches map board wire results session goal a) {o : Op Port Item}
    {next : Client α} {flight : List (Reg × Nat)} {wire' : List Sent}
    (landed : flight.map (fun write => (write.1, UInt32.ofNat write.2)) =
      wire'.filterMap (carried map))
    (grown : ∀ stamps, goal stamps → goal' (stamps ++ [(board.edges.length, o)])) :
    Matches map board wire' results (some next) goal'
      { a with session := some next, flight := flight, trace := a.trace ++ [.op o] } := by
  refine ⟨same.bridge, ?_, rfl, landed, ?_, ?_⟩
  · simp [same.edges]
  · simp [same.results]
  · rw [stamped_append, Nat.zero_add, same.clock]
    exact grown _ same.stamps

/-- Nothing under way carries a write, so a read can be performed. -/
theorem Matches.read {reg : Reg} {next : Item → Client α}
    (same : Matches map board wire results (some (.read (.csr reg) next)) goal a)
    (bare : wire.filterMap (carried map) = [])
    (grown : ∀ stamps, goal stamps → goal' (stamps ++
      [(board.edges.length, .read (.csr reg) (.word (readCsr board.bridge reg)))])) :
    Matches map board wire results (some (next (.word (readCsr board.bridge reg)))) goal'
      (System.BridgeSession.step program a (.host [])) := by
  have landed : a.flight = [] := by simpa [bare] using same.flight
  simp only [System.BridgeSession.step, System.BridgeSession.hostStep, same.session, landed, if_pos]
  have moved : Matches map board wire results (some (next (.word (readCsr board.bridge reg))))
      goal' _ := same.op same.flight grown
  rw [landed] at moved
  simpa only [same.bridge] using moved

end

end Remote8008.Guarantees.WireMatches
