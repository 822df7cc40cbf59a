import Remote8008.Guarantees.SendExact
import Remote8008.Guarantees.WireLinearizable

/-!
# A console session never trips the error bits itself

host/b8008net/console.py:91-201 over host/b8008net/eb_server.py and soc/console_bridge.py.
Every write of `console_pump` to the bank comes directly behind the read that entitles to
it. A datagram can be lost but not run twice, so what the read showed still holds when the
write lands, however long the retries of the read took and whatever arrived meanwhile.
-/

namespace Remote8008.Guarantees.PumpDiscipline
open Lib.Interaction Lib.Machine
open Source.ConsoleBridge Source.Console Source.ConsolePump System.BridgeSession

variable {rxDepth txDepth : Nat}

/-! ## The operations of an iteration -/

/-- What a word read from a register entitles to write. -/
def Entitles : Reg → Item → Reg → Prop
  | .consoleTx, item, .consoleTxData => ShowsRoom item
  | .consoleRx, item, .consoleRxPop => ShowsByte item
  | .consoleErr, _, .consoleErrClear => True
  | _, _, _ => False

/-- The last operation; a write to the bank comes directly behind a read. -/
def entitled : Monitor Port Item (Option (Op Port Item)) where
  follow _ o := some o
  allows last
    | .write (.csr reg) _ =>
      ∃ reg' item, last = some (.read (.csr reg') item) ∧ Entitles reg' item reg
    | _ => True

theorem checkErrors_entitled (last : Option (Op Port Item)) :
    (onBus (checkErrors true)).Wp entitled (fun _ _ => True) last := by
  intro item
  refine ⟨trivial, ?_⟩
  change (onBus (if item.toWord ≠ 0 ∧ true = true then _ else _)).Wp entitled _ _
  split
  · exact ⟨⟨.consoleErr, item, rfl, trivial⟩, trivial⟩
  · trivial

theorem announce_entitled (err : Nat) (last : Option (Op Port Item)) :
    (announce err).Wp entitled (fun _ _ => True) last := by
  unfold announce
  split
  · exact ⟨trivial, trivial⟩
  · trivial

theorem drainLoop_entitled (left : Nat) (out : List UInt8) (last : Option (Op Port Item)) :
    (onBus (drainLoop left out)).Wp entitled (fun _ _ => True) last := by
  induction left generalizing out last with
  | zero => trivial
  | succ left ih =>
    intro item
    refine ⟨trivial, ?_⟩
    change (onBus (if item.toWord &&& rxValidBit = 0 then _ else _)).Wp entitled _ _
    split
    · trivial
    next valid => exact ⟨⟨.consoleRx, item, rfl, valid⟩, ih _ _⟩

theorem forward_entitled (out : List UInt8) (last : Option (Op Port Item)) :
    (forward out).Wp entitled (fun _ _ => True) last := by
  unfold forward
  split
  · exact ⟨trivial, trivial⟩
  · trivial

/-- The poll that `send` remembers is its last operation. -/
theorem send_entitled (polls : Nat) (data : List UInt8) (last : Option (Op Port Item)) :
    (onBus (send polls data)).Wp entitled (fun _ _ => True) last := by
  have simulates : ∀ (g : SendExact.History) (last : Option (Op Port Item)) (o : Op Port Item),
      SendExact.sends.allows g o →
      (∀ item, g.shown.getLast? = some item → last = some (.read (.csr .consoleTx) item)) →
      entitled.allows last o ∧ ∀ item, (SendExact.sends.follow g o).shown.getLast? = some item →
        entitled.follow last o = some (.read (.csr .consoleTx) item) := by
    rintro g last (⟨port, item⟩ | ⟨port, item⟩) allowed related
    · obtain rfl : port = .csr .consoleTx := allowed
      refine ⟨trivial, fun item' shown => ?_⟩
      obtain rfl : item = item' := by simpa [SendExact.sends] using shown
      rfl
    · obtain ⟨rfl, shown, polled, room⟩ := allowed
      exact ⟨⟨.consoleTx, shown, related shown polled, room⟩, by simp [SendExact.sends]⟩
  have meets := Prog.wp_transfer _ simulates (h := last) (by simp) (SendExact.send_meets polls data)
  exact Prog.wp_mono (fun _ _ _ => trivial) meets

theorem sendAndReport_entitled (polls : Nat) (data : List UInt8) (last : Option (Op Port Item)) :
    (sendAndReport polls data).Wp entitled (fun _ _ => True) last := by
  refine Prog.wp_bind (Prog.wp_mono ?_ (send_entitled polls data last))
  intro accepted h _
  split
  · exact ⟨trivial, trivial⟩
  · trivial

theorem pumpStdin_entitled (polls : Nat) (last : Option (Op Port Item)) :
    (pumpStdin polls).Wp entitled (fun _ _ => True) last := by
  intro item
  refine ⟨trivial, ?_⟩
  change Prog.Wp entitled _ (if item.toBytes = [] then _ else _) _
  split
  · trivial
  · split
    · split
      · exact Prog.wp_bind (Prog.wp_mono (fun _ _ done => done) (sendAndReport_entitled polls _ _))
      · trivial
    · exact Prog.wp_bind (Prog.wp_mono (fun _ _ done => done) (sendAndReport_entitled polls _ _))

theorem consolePump_entitled (polls : Nat) (stdinReady : Bool) (last : Option (Op Port Item)) :
    (consolePump polls stdinReady).Wp entitled (fun _ _ => True) last := by
  refine Prog.wp_bind (Prog.wp_mono (fun err h _ => ?_) (checkErrors_entitled last))
  refine Prog.wp_bind (Prog.wp_mono (fun _ h _ => ?_) (announce_entitled err h))
  refine Prog.wp_bind (Prog.wp_mono (fun out h _ => ?_) (drainLoop_entitled drainMaxBytes [] h))
  refine Prog.wp_bind (Prog.wp_mono (fun _ h _ => ?_) (forward_entitled out h))
  split
  · exact pumpStdin_entitled polls h
  · trivial

/-! ## What a read showed, up to the cycle of the write -/

/-- No reset, and nobody else pops or transmits. -/
structure Silent (env : Cycle) : Prop where
  running : env.rst = false
  unpopped : env.consoleRxPop = false
  unsent : env.consoleTxData = none

/-- A read of a register adds no strobe. -/
theorem Silent.selected {env : Cycle} (reg : Reg) (silent : Silent env) :
    Silent (System.WireSession.selected env reg) := by
  cases reg <;> exact ⟨silent.running, silent.unpopped, silent.unsent⟩

/-- A write to the register meets what it needs. -/
def Ready : Reg → State rxDepth txDepth → Prop
  | .consoleTxData, s => s.txFull = false
  | .consoleRxPop, s => s.rxFifo.readable = true
  | .consoleErrClear, _ => True
  | .consoleRx, _ | .consoleTx, _ | .consoleErr, _ => False

theorem ready_of_entitles {s : State rxDepth txDepth} {reg reg' : Reg}
    (entitles : Entitles reg (.word (readCsr s reg)) reg') : Ready reg' s := by
  cases reg with
  | consoleTx =>
    cases reg' with
    | consoleTxData => exact SendExact.room_of_shown entitles
    | _ => exact entitles.elim
  | consoleRx =>
    cases reg' with
    | consoleRxPop =>
      have valid : s.consoleRx.valid = true := by
        by_contra empty
        exact entitles ((rxWord_valid s.consoleRx).mpr (by simpa using empty))
      rwa [consoleRx_valid] at valid
    | _ => exact entitles.elim
  | consoleErr =>
    cases reg' with
    | consoleErrClear => trivial
    | _ => exact entitles.elim
  | consoleRxPop => cases reg' <;> exact entitles.elim
  | consoleTxData => cases reg' <;> exact entitles.elim
  | consoleErrClear => cases reg' <;> exact entitles.elim

/-- An edge of the others takes nothing away. -/
theorem Ready.edge {s : State rxDepth txDepth} {reg : Reg} (ready : Ready reg s)
    (bounded : TxAccounting.LevelBounded s) {env : Cycle} (silent : Silent env) :
    Ready reg (s.step env) := by
  cases reg with
  | consoleTxData => exact SendExact.step_roomy bounded ready silent.unsent
  | consoleRxPop =>
    have kept : (s.rxFifo.step env.phySource false).readable = true := by
      have present : s.rxFifo.readable = true := ready
      have full : s.rxFifo.refill false = false := by simp [Lib.BufferedFifo.Fifo.refill, present]
      simpa [Lib.BufferedFifo.Fifo.readable, Lib.BufferedFifo.Fifo.step, full] using present
    simpa [Ready, State.step, silent.running, State.rxSourceReady, silent.unpopped] using kept
  | consoleErrClear => trivial
  | consoleRx => exact ready.elim
  | consoleTx => exact ready.elim
  | consoleErr => exact ready.elim

/-- Neither of the faults a master can cause. -/
def Blameless (s : State rxDepth txDepth) (c : Cycle) : Prop :=
  s.errTxWriteWhenFull c = false ∧ s.errRxPopWhenEmpty c = false

theorem Silent.blameless {env : Cycle} (silent : Silent env) (s : State rxDepth txDepth) :
    Blameless s env := by
  constructor
  · simp [State.errTxWriteWhenFull, silent.unsent]
  · simp [State.errRxPopWhenEmpty, silent.unpopped]

theorem Ready.blameless {s : State rxDepth txDepth} {reg : Reg} (ready : Ready reg s) {env : Cycle}
    (silent : Silent env) (value : Nat) : Blameless s (strobe env value reg) := by
  cases reg with
  | consoleTxData =>
    have room : s.txFull = false := ready
    exact ⟨by simp [State.errTxWriteWhenFull, room],
      by simp [State.errRxPopWhenEmpty, strobe, silent.unpopped]⟩
  | consoleRxPop =>
    have present : s.rxFifo.readable = true := ready
    exact ⟨by simp [State.errTxWriteWhenFull, strobe, silent.unsent],
      by simp [State.errRxPopWhenEmpty, present]⟩
  | consoleErrClear =>
    exact ⟨by simp [State.errTxWriteWhenFull, strobe, silent.unsent],
      by simp [State.errRxPopWhenEmpty, strobe, silent.unpopped]⟩
  | consoleRx => exact ready.elim
  | consoleTx => exact ready.elim
  | consoleErr => exact ready.elim

theorem sticky_of_blameless {s : State rxDepth txDepth} {c : Cycle} (blameless : Blameless s c)
    {bit : Fin 3} (own : bit ≠ 0) (set : (s.step c).sticky bit = true) : s.sticky bit = true := by
  have calm : s.errSource c bit = false := by
    match bit with
    | 0 => exact absurd rfl own
    | 1 => exact blameless.1
    | 2 => exact blameless.2
  simp only [State.step, State.nextSticky, calm, Bool.false_eq_true, ↓reduceIte] at set
  split at set
  · simp at set
  · exact set

/-! ## Sessions -/

def lastOp (s : Sys rxDepth txDepth Bool) : Option (Op Port Item) :=
  entitled.after none (operations s.trace)

/-- What the last read entitles to is there, and so is what the write in flight needs. -/
structure Disciplined (first : State rxDepth txDepth) (s : Sys rxDepth txDepth Bool) : Prop where
  bounded : TxAccounting.LevelBounded s.bridge
  read : ∀ reg item, lastOp s = some (.read (.csr reg) item) →
    s.flight = [] ∧ ∀ reg', Entitles reg item reg' → Ready reg' s.bridge
  write : s.flight = [] ∨ ∃ reg value, s.flight = [(reg, value)] ∧ Ready reg s.bridge
  blameless : ∀ b c, .edge b c ∈ s.trace → Blameless b c
  clean : ∀ bit ≠ 0, s.bridge.sticky bit = true → first.sticky bit = true

section
variable {first : State rxDepth txDepth} {s : Sys rxDepth txDepth Bool}

theorem Disciplined.edges (disciplined : Disciplined first s) {c : Cycle}
    (calm : Blameless s.bridge c) {b' : State rxDepth txDepth} {c' : Cycle}
    (member : .edge b' c' ∈ s.trace ++ [.edge s.bridge c]) : Blameless b' c' := by
  rcases List.mem_append.mp member with old | new
  · exact disciplined.blameless b' c' old
  · obtain ⟨rfl, rfl⟩ : b' = s.bridge ∧ c' = c := by simpa using new
    exact calm

theorem Disciplined.edge (disciplined : Disciplined first s) {env : Cycle} (silent : Silent env) :
    Disciplined first { s with
      bridge := s.bridge.step env, trace := s.trace ++ [.edge s.bridge env] } := by
  have calm := silent.blameless s.bridge
  refine ⟨TxAccounting.step_levelBounded _ _ disciplined.bounded, ?_, ?_,
    fun _ _ => disciplined.edges calm,
    fun bit own set => disciplined.clean bit own (sticky_of_blameless calm own set)⟩
  · intro reg item last
    obtain ⟨landed, ready⟩ := disciplined.read reg item (by simpa [lastOp] using last)
    exact ⟨landed, fun reg' entitles => (ready reg' entitles).edge disciplined.bounded silent⟩
  · rcases disciplined.write with none | ⟨reg, value, one, ready⟩
    · exact .inl none
    · exact .inr ⟨reg, value, one, ready.edge disciplined.bounded silent⟩

/-- With a write in flight, the last operation was no read. -/
theorem Disciplined.unread (disciplined : Disciplined first s) {write : Reg × Nat}
    {rest : List (Reg × Nat)} (head : s.flight = write :: rest) {reg : Reg} {item : Item} :
    lastOp s ≠ some (.read (.csr reg) item) := by
  intro last
  simp [(disciplined.read reg item last).1] at head

/-- The write in flight is the only one, and finds what it needs. -/
theorem Disciplined.head (disciplined : Disciplined first s) {reg : Reg} {value : Nat}
    {rest : List (Reg × Nat)} (head : s.flight = (reg, value) :: rest) :
    rest = [] ∧ Ready reg s.bridge := by
  rcases disciplined.write with none | ⟨other, word, one, ready⟩
  · simp [none] at head
  · have same := head.symm.trans one
    simp only [List.cons.injEq, Prod.mk.injEq] at same
    exact ⟨same.2, same.1.1 ▸ ready⟩

theorem Disciplined.lands (disciplined : Disciplined first s) {env : Cycle} (silent : Silent env)
    {reg : Reg} {value : Nat} {rest : List (Reg × Nat)} (head : s.flight = (reg, value) :: rest) :
    Disciplined first { s with
      bridge := s.bridge.step (strobe env value reg)
      flight := rest
      trace := s.trace ++ [.edge s.bridge (strobe env value reg)] } := by
  obtain ⟨rfl, ready⟩ := disciplined.head head
  have calm := ready.blameless silent value
  refine ⟨TxAccounting.step_levelBounded _ _ disciplined.bounded, ?_, .inl rfl,
    fun _ _ => disciplined.edges calm,
    fun bit own set => disciplined.clean bit own (sticky_of_blameless calm own set)⟩
  intro reg' item last
  exact absurd (by simpa [lastOp] using last) (disciplined.unread head)

theorem Disciplined.op (disciplined : Disciplined first s) {o : Op Port Item} {next : Client Bool}
    {flight : List (Reg × Nat)}
    (read : ∀ reg item, o = .read (.csr reg) item →
      flight = [] ∧ ∀ reg', Entitles reg item reg' → Ready reg' s.bridge)
    (write : flight = [] ∨ ∃ reg value, flight = [(reg, value)] ∧ Ready reg s.bridge) :
    Disciplined first ⟨s.bridge, some next, flight, s.trace ++ [.op o]⟩ := by
  have last : lastOp
      (⟨s.bridge, some next, flight, s.trace ++ [.op o]⟩ : Sys rxDepth txDepth Bool) = some o := by
    rw [lastOp, operations_append, operations_op, entitled.after_concat]
    rfl
  refine ⟨disciplined.bounded, fun reg item same => ?_, write, fun b c member => ?_,
    disciplined.clean⟩
  · rw [last] at same
    exact read reg item (Option.some.inj same)
  · exact disciplined.blameless b c (by simpa using member)

theorem Disciplined.step {program : Bool → Client Bool} {event : Event Bool}
    {s' : Sys rxDepth txDepth Bool} (disciplined : Disciplined first s)
    (fair : ∀ env lands, event = .cycle env lands → Silent env)
    (conforms : Conforms entitled none (fun _ => True) (fun _ _ => True) s)
    (move : Move program s event s') : Disciplined first s' := by
  cases move with
  | stay => exact disciplined
  | edge env lands => exact disciplined.edge (fair env lands rfl)
  | lands env reg value rest head => exact disciplined.lands (fair env true rfl) head
  | read input reg next reading landed =>
    refine disciplined.op (fun reg' item same => ?_) disciplined.write
    obtain ⟨rfl, rfl⟩ : reg = reg' ∧ .word (readCsr s.bridge reg) = item := by simpa using same
    exact ⟨landed, fun reg' entitles => ready_of_entitles entitles⟩
  | input input next reading => exact disciplined.op (by simp) disciplined.write
  | write input reg item next writing =>
    obtain ⟨reg', shown, last, entitles⟩ := (conforms.running _ writing).1
    obtain ⟨landed, ready⟩ := disciplined.read reg' shown last
    rw [landed]
    exact disciplined.op (by simp) (.inr ⟨reg, item.toWord, rfl, ready reg entitles⟩)
  | output input port item next writing stream => exact disciplined.op (by simp) disciplined.write
  | lost =>
    cases flight : s.flight with
    | nil =>
      refine ⟨disciplined.bounded, fun reg item last => ?_, .inl rfl, disciplined.blameless,
        disciplined.clean⟩
      exact ⟨rfl, (disciplined.read reg item last).2⟩
    | cons write rest =>
      refine ⟨disciplined.bounded, fun reg item last => ?_, .inl ?_, disciplined.blameless,
        disciplined.clean⟩
      · exact absurd last (disciplined.unread flight)
      · exact (disciplined.head flight).1
  | calls call idle =>
    exact ⟨disciplined.bounded, by simpa [lastOp] using disciplined.read, disciplined.write,
      fun b c member => disciplined.blameless b c (by simpa using member), disciplined.clean⟩
  | returns value finished =>
    exact ⟨disciplined.bounded, by simpa [lastOp] using disciplined.read, disciplined.write,
      fun b c member => disciplined.blameless b c (by simpa using member), disciplined.clean⟩

end

theorem disciplined_session (polls : Nat) {first : State rxDepth txDepth}
    (bounded : TxAccounting.LevelBounded first) (events : List (Event Bool))
    (fair : ∀ event ∈ events, WireLinearizable.Direct Silent event) :
    Disciplined first (run (step (consolePump polls)) (.start first none) events) := by
  refine (run_invariant
    (fun s => Conforms entitled none (fun _ => True) (fun _ _ => True) s ∧ Disciplined first s)
    (WireLinearizable.Direct Silent) (fun s event fair inv => ?_) events fair (.start first none)
    ⟨?_, ?_⟩).2
  · have move := step_moves (consolePump polls) s event
    refine ⟨inv.1.step (fun _ _ _ => trivial) (fun call h _ => consolePump_entitled polls call h)
      move, inv.2.step (fun env lands same => ?_) inv.1 move⟩
    subst same
    exact fair
  · exact ⟨by simp [Sys.start, Monitor.Allowed], fun _ => trivial, by simp [Sys.start]⟩
  · exact ⟨bounded, by simp [lastOp, Sys.start, Monitor.after], .inl rfl, by simp [Sys.start],
      fun _ _ set => set⟩

/-- From every state the bridge can be in, for every sequence of `console_pump` iterations
over a wire that runs each datagram at most once and in order, but may lose it, and whose
replies may be lost, late or repeated: while nobody else pops, transmits or resets, no edge
of the bridge rejects a write of the host or pops an empty FIFO, and neither of the two
error bits comes on. -/
theorem pump_never_trips_errors (transport : System.WireSession.Transport)
    (map : System.WireSession.CsrMap) (polls : Nat) (cycles : List Cycle)
    (events : List (System.WireSession.Event Bool))
    (few : ∀ reg, (run (System.WireSession.step transport map (consolePump polls))
      (.start (after cycles : State rxDepth txDepth)) events).net.comm.counter <
        (map.addr reg).toNat)
    (fair : ∀ event ∈ events, ∀ env, event.env? = some env → Silent env) :
    let s := run (System.WireSession.step transport map (consolePump polls))
      (.start (after cycles : State rxDepth txDepth)) events
    (∀ edge ∈ s.board.edges, edge.1.errTxWriteWhenFull edge.2 = false ∧
      edge.1.errRxPopWhenEmpty edge.2 = false) ∧
    ∀ bit ≠ 0, s.board.bridge.sticky bit = true →
      (after cycles : State rxDepth txDepth).sticky bit = true := by
  intro s
  obtain ⟨direct, allowed, same⟩ := (WireLinearizable.simulated_run transport map
    (consolePump polls) (after cycles) events few Silent (fun _ => Silent.selected) fair).plain
  have disciplined : Disciplined (after cycles : State rxDepth txDepth)
      (run (step (consolePump polls)) (.start (after cycles) none) direct) :=
    disciplined_session polls (TxAccounting.after_levelBounded cycles) direct allowed
  refine ⟨fun edge member => ?_, fun bit own set => disciplined.clean bit own ?_⟩
  · rw [← same.edges] at member
    obtain ⟨obs, seen, recorded⟩ := List.mem_filterMap.mp member
    cases obs with
    | edge b c =>
      obtain rfl : (b, c) = edge := Option.some.inj recorded
      exact disciplined.blameless b c seen
    | op o => simp [WireMatches.Obs.edge?] at recorded
    | called => simp [WireMatches.Obs.edge?] at recorded
    | returned value => simp [WireMatches.Obs.edge?] at recorded
  · rw [same.bridge]
    exact set

/-- A byte from the 8008 on its way to the head of the receive FIFO. -/
def byteWaiting : List Cycle := [{ quiet with phySource := some 65 }, quiet]

/-- One iteration that drains it; the request for the first word is sent twice. -/
def oneByte : List (System.WireSession.Event Bool) :=
  let reply (id value : UInt32) := System.WireSession.Event.receive
    (Source.EtherboneWire.encode ⟨0x10, 0x44, 0⟩ [ReadFreshness.wordReply id value])
  [.calls false, .host [], .lose, .timeout, .execute quiet, reply 2 0, .host [], .execute quiet,
    reply 3 833, .host [], .execute quiet, .host [], .execute quiet, reply 4 0, .host [], .returns]

def oneByteDrained : System.WireSession.Sys 256 256 Bool :=
  run (System.WireSession.step WireLinearizable.wireTransport WireLinearizable.bankMap
    (consolePump 0)) (.start (after byteWaiting)) oneByte

theorem drained_byte_never_trips_errors :
    oneByteDrained.history.map System.WireSession.Span.op =
      [.read (.csr .consoleErr) (.word 0), .read (.csr .consoleRx) (.word 833),
        .write (.csr .consoleRxPop) (.word 1), .read (.csr .consoleRx) (.word 0),
        .write .stdout (.bytes [65])] ∧
    oneByteDrained.results = [true] ∧
    ∀ edge ∈ oneByteDrained.board.edges, edge.1.errTxWriteWhenFull edge.2 = false ∧
      edge.1.errRxPopWhenEmpty edge.2 = false := by
  have four : oneByteDrained.net.comm.counter = 4 := by decide +kernel
  refine ⟨by decide +kernel, by decide +kernel, ?_⟩
  refine (pump_never_trips_errors WireLinearizable.wireTransport WireLinearizable.bankMap 0
    byteWaiting oneByte (fun reg => ?_) ?_).1
  · change oneByteDrained.net.comm.counter < _
    rw [four]
    cases reg <;> decide
  · have silent : Silent quiet := ⟨rfl, rfl, rfl⟩
    simp [oneByte, System.WireSession.Event.env?, silent]

end Remote8008.Guarantees.PumpDiscipline
