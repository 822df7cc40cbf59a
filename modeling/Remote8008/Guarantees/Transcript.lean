import Remote8008.Guarantees.PumpDiscipline
import Remote8008.Guarantees.RxStream
import Remote8008.Guarantees.TypedInput

/-!
# The transcript of a console session

host/b8008net/console.py:91-201 over host/b8008net/eb_server.py and soc/console_bridge.py:
what the 8008 sent against what the host printed, and what the host wrote against what the
8008 is sent. A pop that is lost makes the host read and print its byte again, so the bytes
popped are among those printed, in order, and every surplus one is a pop that was sent and
has not arrived. The bytes that enter the transmit FIFO are among those written, in order.
-/

namespace Remote8008.Guarantees.Transcript
open Lib.Interaction Lib.Machine
open Source.ConsoleBridge Source.Console Source.ConsolePump System.BridgeSession
open PumpDiscipline WireMatches

variable {rxDepth txDepth : Nat}

/-! ## What the operations and the edges say -/

/-- The bytes written to standard output. -/
def printed (ops : List (Op Port Item)) : List UInt8 :=
  ops.flatMap fun
    | .write .stdout item => item.toBytes
    | _ => []

def popsSent (ops : List (Op Port Item)) : Nat :=
  ops.countP fun
    | .write (.csr .consoleRxPop) _ => true
    | _ => false

abbrev Edges (rxDepth txDepth : Nat) := List (State rxDepth txDepth × Cycle)

/-- The bytes the receive FIFO took from the PHY. -/
def received (edges : Edges rxDepth txDepth) : List UInt8 :=
  edges.flatMap fun e => RxStream.accepted e.1 e.2

def popped (edges : Edges rxDepth txDepth) : List UInt8 :=
  edges.flatMap fun e => RxStream.consumed e.1 e.2

/-- The bytes that entered the transmit FIFO. -/
def entered (edges : Edges rxDepth txDepth) : List UInt8 :=
  edges.flatMap fun e => TxAccounting.written e.1 e.2

/-- The bytes the PHY took. -/
def transmitted (edges : Edges rxDepth txDepth) : List UInt8 :=
  edges.flatMap fun e => TxAccounting.handed e.1 e.2

/-! ## An iteration prints what it pops -/

/-- The byte of a word read from `console_rx`. -/
def byteOf (item : Item) : UInt8 := UInt8.ofNat (item.toWord &&& rxDataMask)

/-- The last word read from `console_rx` since the last pop, the bytes popped, and those
printed. -/
structure Log where
  shown : Option Item
  taken : List UInt8
  printed : List UInt8

def Log.empty : Log := ⟨none, [], []⟩

/-- A pop comes behind a read that showed its byte, and what is printed is what has been
popped since the last time. -/
def transcript : Monitor Port Item Log where
  follow h
    | .read (.csr .consoleRx) item => { h with shown := some item }
    | .write (.csr .consoleRxPop) _ =>
      { h with shown := none, taken := h.taken ++ (h.shown.map byteOf).toList }
    | .write .stdout item => { h with printed := h.printed ++ item.toBytes }
    | _ => h
  allows h
    | .write (.csr .consoleRxPop) _ => ∃ item, h.shown = some item ∧ ShowsByte item
    | .write .stdout item => h.printed ++ item.toBytes = h.taken
    | _ => True

theorem checkErrors_transcript (h : Log) :
    (onBus (checkErrors true)).Wp transcript (fun _ h' => h' = h) h := by
  intro item
  refine ⟨trivial, ?_⟩
  change (onBus (if item.toWord ≠ 0 ∧ true = true then _ else _)).Wp transcript _ _
  split
  · exact ⟨trivial, rfl⟩
  · exact rfl

theorem announce_transcript (err : Nat) (h : Log) :
    (announce err).Wp transcript (fun _ h' => h' = h) h := by
  unfold announce
  split
  · exact ⟨trivial, rfl⟩
  · exact rfl

theorem drainLoop_transcript (left : Nat) (out : List UInt8) (h : Log)
    (pending : h.printed ++ out = h.taken) :
    (onBus (drainLoop left out)).Wp transcript (fun out h => h.printed ++ out = h.taken) h := by
  induction left generalizing out h with
  | zero => exact pending
  | succ left ih =>
    intro item
    refine ⟨trivial, ?_⟩
    change (onBus (if item.toWord &&& rxValidBit = 0 then _ else _)).Wp transcript _ _
    split
    · exact pending
    next valid =>
      refine ⟨⟨item, rfl, valid⟩, ih _ _ ?_⟩
      simp [transcript, byteOf, ← pending]

theorem forward_transcript (out : List UInt8) (h : Log) (pending : h.printed ++ out = h.taken) :
    (forward out).Wp transcript (fun _ h => h.printed = h.taken) h := by
  unfold forward
  split
  · exact ⟨pending, pending⟩
  next none =>
    obtain rfl : out = [] := by simpa using none
    have even : h.printed = h.taken := by simpa using pending
    exact even

/-- `send` only polls and writes the transmit side. -/
theorem send_transcript (polls : Nat) (data : List UInt8) (h : Log) :
    (onBus (send polls data)).Wp transcript (fun _ h' => h' = h) h := by
  have simulates : ∀ (g : SendExact.History) (h' : Log) (o : Op Port Item),
      SendExact.sends.allows g o → h' = h →
      transcript.allows h' o ∧ transcript.follow h' o = h := by
    rintro g h' (⟨port, item⟩ | ⟨port, item⟩) allowed rfl
    · obtain rfl : port = .csr .consoleTx := allowed
      exact ⟨trivial, rfl⟩
    · obtain ⟨rfl, -⟩ := allowed
      exact ⟨trivial, rfl⟩
  have meets := Prog.wp_transfer _ simulates rfl (SendExact.send_meets polls data)
  refine Prog.wp_mono ?_ meets
  rintro value h' ⟨-, same, -⟩
  exact same

theorem sendAndReport_transcript (polls : Nat) (data : List UInt8) (h : Log) :
    (sendAndReport polls data).Wp transcript (fun _ h' => h' = h) h := by
  refine Prog.wp_bind (Prog.wp_mono ?_ (send_transcript polls data h))
  rintro accepted h' rfl
  split
  · exact ⟨trivial, rfl⟩
  · exact rfl

theorem pumpStdin_transcript (polls : Nat) (h : Log) :
    (pumpStdin polls).Wp transcript (fun _ h' => h' = h) h := by
  intro item
  refine ⟨trivial, ?_⟩
  change Prog.Wp transcript _ (if item.toBytes = [] then _ else _) h
  split
  · exact rfl
  · split
    · split
      · exact Prog.wp_bind (Prog.wp_mono (fun _ _ same => same)
          (sendAndReport_transcript polls _ h))
      · exact rfl
    · exact Prog.wp_bind (Prog.wp_mono (fun _ _ same => same) (sendAndReport_transcript polls _ h))

/-- At the end of an iteration all that was popped is printed. -/
theorem consolePump_transcript (polls : Nat) (stdinReady : Bool) (h : Log)
    (even : h.printed = h.taken) :
    (consolePump polls stdinReady).Wp transcript (fun _ h => h.printed = h.taken) h := by
  refine Prog.wp_bind (Prog.wp_mono ?_ (checkErrors_transcript h))
  rintro err h' rfl
  refine Prog.wp_bind (Prog.wp_mono ?_ (announce_transcript err h'))
  rintro - h rfl
  have drained := drainLoop_transcript drainMaxBytes [] h (by simpa using even)
  refine Prog.wp_bind (Prog.wp_mono (fun out h pending => ?_) drained)
  refine Prog.wp_bind (Prog.wp_mono (fun _ h even => ?_) (forward_transcript out h pending))
  split
  · refine Prog.wp_mono ?_ (pumpStdin_transcript polls h)
    rintro - h' rfl
    exact even
  · exact even

/-! ## The bytes of the writes in flight -/

/-- The byte that the pop in flight will take. -/
def popInFlight (b : State rxDepth txDepth) : List (Reg × Nat) → List UInt8
  | [(.consoleRxPop, _)] => [b.consoleRx.data]
  | _ => []

/-- The byte that the write in flight will store. -/
def dataInFlight : List (Reg × Nat) → List UInt8
  | [(.consoleTxData, value)] => [UInt8.ofNat value]
  | _ => []

def log (trace : List (Obs rxDepth txDepth Bool)) : Log :=
  transcript.after .empty (operations trace)

/-- The head of the receive FIFO is the byte of the word. -/
def Heads (b : State rxDepth txDepth) (item : Item) : Prop :=
  b.rxFifo.readable = true ∧ b.consoleRx.data = byteOf item

theorem head_kept {b : State rxDepth txDepth} {c : Cycle} (readable : b.rxFifo.readable = true)
    (running : c.rst = false) (unpopped : c.consoleRxPop = false) :
    (b.step c).rxFifo.readable = true ∧ (b.step c).consoleRx.data = b.consoleRx.data := by
  obtain ⟨head, out⟩ := Option.isSome_iff_exists.mp readable
  have idle : b.rxSourceReady c = false := by simp [State.rxSourceReady, unpopped]
  have kept : (b.step c).rxFifo.out = some head := by
    simp [State.step, running, idle, Lib.BufferedFifo.Fifo.step, Lib.BufferedFifo.Fifo.refill,
      readable, out]
  exact ⟨by simp [Lib.BufferedFifo.Fifo.readable, kept], by simp [State.consoleRx, kept, out]⟩

theorem Heads.edge {b : State rxDepth txDepth} {item : Item} (heads : Heads b item) {c : Cycle}
    (running : c.rst = false) (unpopped : c.consoleRxPop = false) : Heads (b.step c) item := by
  obtain ⟨readable, same⟩ := head_kept heads.1 running unpopped
  exact ⟨readable, same.trans heads.2⟩

theorem heads_of_shown {b : State rxDepth txDepth}
    (shown : ShowsByte (.word (readCsr b .consoleRx))) :
    Heads b (.word (readCsr b .consoleRx)) := by
  have entitles : Entitles .consoleRx (.word (readCsr b .consoleRx)) .consoleRxPop := shown
  have ready : Ready .consoleRxPop b := ready_of_entitles entitles
  refine ⟨ready, ?_⟩
  simp [byteOf, Item.toWord, readCsr, rxWord_data]

/-! ## Sessions -/

/-- Both FIFOs conserve their bytes; what has been popped, and the byte of a pop in flight,
are among the bytes taken, and likewise on the transmit side. -/
structure Faithful (first : State rxDepth txDepth) (s : Sys rxDepth txDepth Bool) : Prop where
  rx : first.rxFifo.held ++ received (edgesOf s.trace) =
    popped (edgesOf s.trace) ++ s.bridge.rxFifo.held
  tx : first.txFifo.held ++ entered (edgesOf s.trace) =
    transmitted (edgesOf s.trace) ++ s.bridge.txFifo.held
  shown : ∀ item, (log s.trace).shown = some item → ShowsByte item →
    (∀ value, (Reg.consoleRxPop, value) ∉ s.flight) ∧ Heads s.bridge item
  taken : (popped (edgesOf s.trace) ++ popInFlight s.bridge s.flight).Sublist (log s.trace).taken
  written : (entered (edgesOf s.trace) ++ dataInFlight s.flight).Sublist
    (TypedInput.bytesWritten (operations s.trace))

section
variable {first : State rxDepth txDepth} {s : Sys rxDepth txDepth Bool}

/-- An edge of the clock: the conservation laws, and what becomes of the bytes in flight. -/
theorem Faithful.clocked (faithful : Faithful first s)
    (bounded : TxAccounting.LevelBounded s.bridge)
    {c : Cycle} (running : c.rst = false) {flight : List (Reg × Nat)}
    (shown : ∀ item, (log s.trace).shown = some item → ShowsByte item →
      (∀ value, (Reg.consoleRxPop, value) ∉ flight) ∧ Heads (s.bridge.step c) item)
    (pop : RxStream.consumed s.bridge c ++
      popInFlight (s.bridge.step c) flight =
        popInFlight s.bridge s.flight)
    (data : TxAccounting.written s.bridge c ++
      dataInFlight flight =
        dataInFlight s.flight) :
    Faithful first ⟨s.bridge.step c, s.session, flight, s.trace ++ [.edge s.bridge c]⟩ := by
  have edges : edgesOf (s.trace ++ [.edge s.bridge c]) =
      edgesOf s.trace ++ [(s.bridge, c)] := by simp
  refine ⟨?_, ?_, by simpa [log] using shown, ?_, ?_⟩
  · have balance := RxStream.step_balance s.bridge c running
    simp only [edges, received, popped, List.flatMap_append, List.flatMap_singleton]
    rw [← List.append_assoc, show first.rxFifo.held ++ List.flatMap _ (edgesOf s.trace) = _ from
      faithful.rx, List.append_assoc, balance, List.append_assoc]
    rfl
  · have balance := TxAccounting.step_balance s.bridge c running bounded
    simp only [edges, entered, transmitted, List.flatMap_append, List.flatMap_singleton]
    rw [← List.append_assoc, show first.txFifo.held ++ List.flatMap _ (edgesOf s.trace) = _ from
      faithful.tx, List.append_assoc, balance, List.append_assoc]
    rfl
  · have before := faithful.taken
    rw [← pop] at before
    simpa [log, popped] using before
  · have before := faithful.written
    rw [← data] at before
    simpa [entered] using before

theorem Faithful.edge (faithful : Faithful first s) (disciplined : Disciplined first s)
    {env : Cycle} (silent : Silent env) :
    Faithful first { s with
      bridge := s.bridge.step env, trace := s.trace ++ [.edge s.bridge env] } := by
  have unpopped : RxStream.consumed s.bridge env = [] := by
    simp [RxStream.consumed, silent.unpopped]
  have unsent : TxAccounting.written s.bridge env = [] := by
    simp [TxAccounting.written, silent.unsent]
  refine faithful.clocked disciplined.bounded silent.running (fun item last byte => ?_) ?_ ?_
  · obtain ⟨free, heads⟩ := faithful.shown item last byte
    exact ⟨free, heads.edge silent.running silent.unpopped⟩
  · rw [unpopped, List.nil_append]
    rcases disciplined.write with none | ⟨reg, value, one, ready⟩
    · simp [popInFlight, none]
    · cases reg with
      | consoleRxPop =>
        have kept := head_kept ready silent.running silent.unpopped
        simp [popInFlight, one, kept.2]
      | _ => simp [popInFlight, one]
  · rw [unsent, List.nil_append]

/-- The edge on which the write in flight lands: its byte leaves the flight. -/
theorem Faithful.lands (faithful : Faithful first s) (disciplined : Disciplined first s)
    {env : Cycle} (silent : Silent env) {reg : Reg} {value : Nat} {rest : List (Reg × Nat)}
    (head : s.flight = (reg, value) :: rest) :
    Faithful first { s with
      bridge := s.bridge.step (strobe env value reg)
      flight := rest
      trace := s.trace ++ [.edge s.bridge (strobe env value reg)] } := by
  obtain ⟨rfl, ready⟩ := disciplined.head head
  have running : (strobe env value reg).rst = false := by
    cases reg <;> exact silent.running
  refine faithful.clocked disciplined.bounded running (fun item last byte => ?_) ?_ ?_
  · obtain ⟨free, heads⟩ := faithful.shown item last byte
    refine ⟨by simp, heads.edge running ?_⟩
    cases reg with
    | consoleRxPop => exact absurd (by simp [head]) (free value)
    | _ => exact silent.unpopped
  · cases reg with
    | consoleRxPop =>
      have valid : s.bridge.consoleRx.valid = true := (consoleRx_valid s.bridge).trans ready
      simp [RxStream.consumed, strobe, valid, popInFlight, head]
    | _ => simp [RxStream.consumed, strobe, silent.unpopped, popInFlight, head]
  · cases reg with
    | consoleTxData =>
      have room : s.bridge.consoleTx.full = false := ready
      simp [TxAccounting.written, strobe, room, dataInFlight, head]
    | _ => simp [TxAccounting.written, strobe, silent.unsent, dataInFlight, head]

/-- An operation of the host: no edge, so only what it adds to its own side. -/
theorem Faithful.op (faithful : Faithful first s) {o : Op Port Item} {next : Client Bool}
    {flight : List (Reg × Nat)}
    (shown : ∀ item, (transcript.follow (log s.trace) o).shown = some item → ShowsByte item →
      (∀ value, (Reg.consoleRxPop, value) ∉ flight) ∧ Heads s.bridge item)
    (taken : (popped (edgesOf s.trace) ++
      popInFlight s.bridge flight).Sublist
        (transcript.follow (log s.trace) o).taken)
    (written : (entered (edgesOf s.trace) ++
      dataInFlight flight).Sublist
        (TypedInput.bytesWritten (operations s.trace ++ [o]))) :
    Faithful first ⟨s.bridge, some next, flight, s.trace ++ [.op o]⟩ := by
  have logged : log (s.trace ++ [.op o]) = transcript.follow (log s.trace) o := by
    rw [log, operations_append, operations_op, transcript.after_concat]
    rfl
  refine ⟨by simpa using faithful.rx, by simpa using faithful.tx, ?_, ?_, by simpa using written⟩
  · rw [logged]
    exact shown
  · rw [logged]
    simpa using taken

/-- An operation that neither writes a register nor reads `console_rx`. -/
theorem Faithful.aside (faithful : Faithful first s) {o : Op Port Item} {next : Client Bool}
    (shown : (transcript.follow (log s.trace) o).shown = (log s.trace).shown)
    (taken : (transcript.follow (log s.trace) o).taken = (log s.trace).taken)
    (apart : TypedInput.bytesWritten [o] = []) :
    Faithful first ⟨s.bridge, some next, s.flight, s.trace ++ [.op o]⟩ := by
  refine faithful.op (fun item last byte => ?_) ?_ ?_
  · exact faithful.shown item (shown ▸ last) byte
  · rw [taken]
    exact faithful.taken
  · rw [TypedInput.bytesWritten_append, apart, List.append_nil]
    exact faithful.written

theorem Faithful.read (faithful : Faithful first s) {reg : Reg} {next : Client Bool}
    (landed : s.flight = []) :
    Faithful first ⟨s.bridge, some next, s.flight,
      s.trace ++ [.op (.read (.csr reg) (.word (readCsr s.bridge reg)))]⟩ := by
  cases reg with
  | consoleRx =>
    refine faithful.op (fun item last byte => ?_) faithful.taken ?_
    · obtain rfl : .word (readCsr s.bridge .consoleRx) = item := Option.some.inj last
      exact ⟨by simp [landed], heads_of_shown byte⟩
    · rw [TypedInput.bytesWritten_append]
      exact faithful.written.trans (List.sublist_append_left _ _)
  | _ => exact faithful.aside rfl rfl rfl

theorem Faithful.write (faithful : Faithful first s) {reg : Reg} {item : Item} {next : Client Bool}
    (landed : s.flight = []) (allowed : transcript.allows (log s.trace) (.write (.csr reg) item)) :
    Faithful first ⟨s.bridge, some next, s.flight ++ [(reg, item.toWord)],
      s.trace ++ [.op (.write (.csr reg) item)]⟩ := by
  have popped_taken : (popped (edgesOf s.trace)).Sublist (log s.trace).taken := by
    simpa [popInFlight, landed] using faithful.taken
  have entered_written : (entered (edgesOf s.trace)).Sublist
      (TypedInput.bytesWritten (operations s.trace)) := by
    simpa [dataInFlight, landed] using faithful.written
  rw [landed, List.nil_append]
  cases reg with
  | consoleRxPop =>
    obtain ⟨shown, last, byte⟩ := allowed
    obtain ⟨-, heads⟩ := faithful.shown shown last byte
    refine faithful.op (by simp [transcript]) ?_ ?_
    · have grown := popped_taken.append (List.Sublist.refl [byteOf shown])
      simpa [popInFlight, transcript, last, heads.2] using grown
    · simpa [dataInFlight, TypedInput.bytesWritten] using entered_written
  | consoleTxData =>
    refine faithful.op (fun shown last byte => ?_) ?_ ?_
    · exact ⟨by simp, (faithful.shown shown last byte).2⟩
    · simpa [popInFlight, transcript] using popped_taken
    · have grown := entered_written.append (List.Sublist.refl [UInt8.ofNat item.toWord])
      simpa [dataInFlight, TypedInput.bytesWritten] using grown
  | _ =>
    refine faithful.op (fun shown last byte => ?_) ?_ ?_
    · exact ⟨by simp, (faithful.shown shown last byte).2⟩
    · simpa [popInFlight, transcript] using popped_taken
    · simpa [dataInFlight, TypedInput.bytesWritten] using entered_written

theorem Faithful.step {program : Bool → Client Bool} {event : Event Bool}
    {s' : Sys rxDepth txDepth Bool} (faithful : Faithful first s)
    (disciplined : Disciplined first s)
    (fair : ∀ env lands, event = .cycle env lands → Silent env)
    (entitles : Conforms entitled none (fun _ => True) (fun _ _ => True) s)
    (conforms : Conforms transcript .empty (fun h => h.printed = h.taken)
      (fun _ h => h.printed = h.taken) s)
    (move : Move program s event s') : Faithful first s' := by
  cases move with
  | stay => exact faithful
  | edge env lands => exact faithful.edge disciplined (fair env lands rfl)
  | lands env reg value rest head => exact faithful.lands disciplined (fair env true rfl) head
  | read input reg next reading landed => exact faithful.read landed
  | input input next reading => exact faithful.aside rfl rfl rfl
  | write input reg item next writing =>
    obtain ⟨reg', shown, last, -⟩ := (entitles.running _ writing).1
    exact faithful.write (disciplined.read reg' shown last).1 (conforms.running _ writing).1
  | output input port item next writing stream =>
    cases port with
    | csr reg => exact absurd rfl (stream reg)
    | stdin => exact faithful.aside rfl rfl rfl
    | stdout => exact faithful.aside rfl rfl rfl
    | stderr => exact faithful.aside rfl rfl rfl
  | lost =>
    have empty : s.flight.tail = [] := by
      cases flight : s.flight with
      | nil => rfl
      | cons write rest => exact (disciplined.head flight).1
    refine ⟨faithful.rx, faithful.tx, fun item last byte => ?_, ?_, ?_⟩
    · exact ⟨by simp [empty], (faithful.shown item last byte).2⟩
    · simpa [popInFlight, empty] using (List.sublist_append_left _ _).trans faithful.taken
    · simpa [dataInFlight, empty] using (List.sublist_append_left _ _).trans faithful.written
  | calls call idle =>
    exact ⟨by simpa using faithful.rx, by simpa using faithful.tx,
      by simpa [log] using faithful.shown, by simpa [log] using faithful.taken,
      by simpa using faithful.written⟩
  | returns value finished =>
    exact ⟨by simpa using faithful.rx, by simpa using faithful.tx,
      by simpa [log] using faithful.shown, by simpa [log] using faithful.taken,
      by simpa using faithful.written⟩

end

/-- All that a session keeps. -/
structure Keeping (first : State rxDepth txDepth) (s : Sys rxDepth txDepth Bool) : Prop where
  entitles : Conforms entitled none (fun _ => True) (fun _ _ => True) s
  disciplined : Disciplined first s
  conforms : Conforms transcript .empty (fun h => h.printed = h.taken)
    (fun _ h => h.printed = h.taken) s
  faithful : Faithful first s

theorem Keeping.step {polls : Nat} {first : State rxDepth txDepth} {s s' : Sys rxDepth txDepth Bool}
    {event : Event Bool} (keeping : Keeping first s)
    (fair : ∀ env lands, event = .cycle env lands → Silent env)
    (move : Move (consolePump polls) s event s') : Keeping first s' where
  entitles := keeping.entitles.step (fun _ _ _ => trivial)
    (fun call h _ => consolePump_entitled polls call h) move
  disciplined := keeping.disciplined.step fair keeping.entitles move
  conforms := keeping.conforms.step (fun _ (h : Log) (even : h.printed = h.taken) => even)
    (consolePump_transcript polls) move
  faithful := keeping.faithful.step keeping.disciplined fair keeping.entitles keeping.conforms move

theorem keeping_session (polls : Nat) {first : State rxDepth txDepth}
    (bounded : TxAccounting.LevelBounded first) (events : List (Event Bool))
    (fair : ∀ event ∈ events, WireLinearizable.Direct Silent event) :
    Keeping first (run (step (consolePump polls)) (.start first none) events) := by
  refine run_invariant (Keeping first) (WireLinearizable.Direct Silent)
    (fun s event fair keeping => keeping.step ?_ (step_moves (consolePump polls) s event)) events
    fair (.start first none) ⟨⟨?_, ?_, ?_⟩, ⟨bounded, ?_, .inl rfl, ?_, fun _ _ set => set⟩,
      ⟨?_, ?_, ?_⟩, ⟨?_, ?_, ?_, ?_, ?_⟩⟩
  · rintro env lands rfl
    exact fair
  all_goals simp [Sys.start, Monitor.Allowed, Monitor.after, lastOp, log, Log.empty, received,
    popped, entered, transmitted, popInFlight, dataInFlight]

/-- What the log of a session that kept to the monitor says in terms of its operations. -/
theorem log_counts {ops : List (Op Port Item)} (allowed : transcript.Allowed .empty ops) :
    (transcript.after .empty ops).taken.length = popsSent ops ∧
      (transcript.after .empty ops).printed = printed ops := by
  induction ops using List.reverseRecOn with
  | nil => exact ⟨rfl, rfl⟩
  | append_singleton ops o ih =>
    have now := allowed ops o [] rfl
    obtain ⟨taken, out⟩ := ih fun before p later split =>
      allowed before p (later ++ [o]) (by simp [split])
    have sent : popsSent (ops ++ [o]) = popsSent ops + popsSent [o] := List.countP_append
    have shown : printed (ops ++ [o]) = printed ops ++ printed [o] := List.flatMap_append
    rw [transcript.after_concat, sent, shown, ← taken, ← out]
    generalize transcript.after .empty ops = h at now
    cases o with
    | read port item =>
      cases port with
      | csr reg => cases reg <;> simp [transcript, popsSent, printed]
      | _ => simp [transcript, popsSent, printed]
    | write port item =>
      cases port with
      | csr reg =>
        cases reg with
        | consoleRxPop =>
          obtain ⟨word, last, -⟩ := now
          simp [transcript, popsSent, printed, last]
        | _ => simp [transcript, popsSent, printed]
      | _ => simp [transcript, popsSent, printed]

theorem operations_of_stamped (n : Nat) (trace : List (Obs rxDepth txDepth Bool)) :
    (stamped n trace).map Prod.snd = operations trace := by
  induction trace generalizing n with
  | nil => rfl
  | cons obs rest ih =>
    cases obs with
    | edge b c => exact ih (n + 1)
    | op o => exact congrArg (o :: ·) (ih n)
    | called => exact ih n
    | returned value => exact ih n

theorem ops_of_within {history : List System.WireSession.Span} {stamps : List (Nat × Op Port Item)}
    (within : List.Forall₂ Within history stamps) :
    history.map System.WireSession.Span.op = stamps.map Prod.snd := by
  induction within with
  | nil => rfl
  | cons here _ ih => simp [here.1, ih]

/-- For every run of `console_pump` iterations over a wire that runs each datagram at most
once and in order, but may lose it, and whose replies may be lost, late or repeated, while
nobody else pops, transmits or resets. Receiving: what the FIFO took from the 8008 is what
was popped and what it still holds, and between two iterations the popped bytes are among
the printed ones, in order, which are as many as pops were sent. So no byte is skipped, and
a byte is printed again only for a pop that did not arrive. Transmitting: the bytes that
entered the FIFO are among those written, in order, and leave it in that order. -/
theorem transcript_faithful (transport : System.WireSession.Transport)
    (map : System.WireSession.CsrMap) (polls : Nat) (cycles : List Cycle)
    (events : List (System.WireSession.Event Bool))
    (few : ∀ reg, (run (System.WireSession.step transport map (consolePump polls))
      (.start (after cycles : State rxDepth txDepth)) events).net.comm.counter <
        (map.addr reg).toNat)
    (fair : ∀ event ∈ events, ∀ env, event.env? = some env → Silent env) :
    let first : State rxDepth txDepth := after cycles
    let s := run (System.WireSession.step transport map (consolePump polls)) (.start first) events
    let ops := s.history.map System.WireSession.Span.op
    first.rxFifo.held ++ received s.board.edges =
      popped s.board.edges ++ s.board.bridge.rxFifo.held ∧
    (s.session = none → (popped s.board.edges).Sublist (printed ops) ∧
      (printed ops).length = popsSent ops) ∧
    (entered s.board.edges).Sublist (TypedInput.bytesWritten ops) ∧
    first.txFifo.held ++ entered s.board.edges =
      transmitted s.board.edges ++ s.board.bridge.txFifo.held := by
  intro first s ops
  obtain ⟨direct, allowed, same⟩ := (WireLinearizable.simulated_run transport map
    (consolePump polls) first events few Silent (fun _ => Silent.selected) fair).plain
  have keeping : Keeping first (run (step (consolePump polls)) (.start first none) direct) :=
    keeping_session polls (TxAccounting.after_levelBounded cycles) direct allowed
  generalize run (step (consolePump polls)) (.start first none) direct = a at same keeping
  have performed : operations a.trace = ops := by
    rw [← operations_of_stamped 0, ← ops_of_within same.stamps]
  obtain ⟨sent, out⟩ := log_counts keeping.conforms.allowed
  have faithful := keeping.faithful
  rw [performed] at sent out
  refine ⟨?_, fun resting => ?_, ?_, ?_⟩
  · rw [← same.edges, ← same.bridge]
    exact faithful.rx
  · have even := keeping.conforms.resting (same.session.trans resting)
    rw [performed, out] at even
    rw [← same.edges, even]
    refine ⟨?_, sent⟩
    have taken := (List.sublist_append_left _ _).trans faithful.taken
    rwa [log, performed] at taken
  · have written := (List.sublist_append_left _ _).trans faithful.written
    rwa [performed, same.edges] at written
  · rw [← same.edges, ← same.bridge]
    exact faithful.tx

/-- One iteration that meets one byte. The datagram of its first pop is lost. -/
def lostPop : List (System.WireSession.Event Bool) :=
  let reply (id value : UInt32) := System.WireSession.Event.receive
    (Source.EtherboneWire.encode ⟨0x10, 0x44, 0⟩ [ReadFreshness.wordReply id value])
  [.calls false, .host [], .execute quiet, reply 1 0, .host [], .execute quiet, reply 2 833,
    .host [], .lose, .host [], .execute quiet, reply 3 833, .host [], .execute quiet, .host [],
    .execute quiet, reply 4 0, .host [], .returns]

def popLost : System.WireSession.Sys 256 256 Bool :=
  run (System.WireSession.step WireLinearizable.wireTransport WireLinearizable.bankMap
    (consolePump 0)) (.start (after byteWaiting)) lostPop

theorem lost_pop_transcript :
    popped popLost.board.edges = [65] ∧
    printed (popLost.history.map System.WireSession.Span.op) = [65, 65] ∧
    (popped popLost.board.edges).Sublist
      (printed (popLost.history.map System.WireSession.Span.op)) ∧
    (printed (popLost.history.map System.WireSession.Span.op)).length =
      popsSent (popLost.history.map System.WireSession.Span.op) := by
  have four : popLost.net.comm.counter = 4 := by decide +kernel
  have resting : popLost.session.isNone = true := by decide +kernel
  refine ⟨by decide +kernel, by decide +kernel, ?_⟩
  refine (transcript_faithful WireLinearizable.wireTransport WireLinearizable.bankMap 0
    byteWaiting lostPop (fun reg => ?_) ?_).2.1 (Option.isNone_iff_eq_none.mp resting)
  · change popLost.net.comm.counter < _
    rw [four]
    cases reg <;> decide
  · have silent : Silent quiet := ⟨rfl, rfl, rfl⟩
    simp [lostPop, System.WireSession.Event.env?, silent]

end Remote8008.Guarantees.Transcript
