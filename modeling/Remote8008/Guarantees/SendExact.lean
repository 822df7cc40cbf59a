import Mathlib.Data.List.Induction
import Remote8008.Guarantees.TxAccounting
import Remote8008.System.BridgeSession

/-!
# `send` never overruns the transmit FIFO

host/b8008net/console.py:123-153 against soc/console_bridge.py:142-161. `full` is checked
before every write, and between the check and the strobe of the write the PHY can only
make room. The program side is a specification of `send` over its own operations; the
bridge side carries what the last check showed up to the cycle that stores the byte.
-/

namespace Remote8008.Guarantees.SendExact
open Lib.BufferedFifo Lib.Interaction Lib.Machine
open Source.ConsoleBridge Source.Console Source.ConsolePump System.BridgeSession

variable {rxDepth txDepth : Nat}

/-! ## The operations of `send` -/

/-- What the polls since the last write showed, and the bytes written. -/
structure History where
  shown : List Item
  written : List UInt8

/-- A byte is written only behind a poll that showed room. -/
def sends : Monitor Port Item History where
  follow h
    | .read (.csr .consoleTx) item => ⟨h.shown ++ [item], h.written⟩
    | .write (.csr .consoleTxData) item => ⟨[], h.written ++ [UInt8.ofNat item.toWord]⟩
    | _ => ⟨[], h.written⟩
  allows h
    | .read port _ => port = .csr .consoleTx
    | .write port _ => port = .csr .consoleTxData ∧
        ∃ item, h.shown.getLast? = some item ∧ ShowsRoom item

/-- A return of `count`: that many bytes were written, and fewer than all only after a
wait in which no poll showed room. -/
structure Sent (polls : Nat) (data : List UInt8) (count : Nat) (h : History) : Prop where
  counted : count ≤ data.length
  written : h.written = data.take count
  waited : count < data.length →
    h.shown.length = polls + 1 ∧ ∀ item ∈ h.shown, ¬ ShowsRoom item

/-- The bounded wait for one byte, with the polls it has used up. -/
theorem waitAndWrite_meets {post : Nat → History → Prop} {byte : UInt8} {giveUp next : Host Nat}
    {written : List UInt8} (polls : Nat)
    (quits : ∀ shown, shown.length = polls + 1 → (∀ item ∈ shown, ¬ ShowsRoom item) →
      (onBus giveUp).Wp sends post ⟨shown, written⟩)
    (goes : (onBus next).Wp sends post ⟨[], written ++ [byte]⟩) (left : Nat)
    (shown : List Item) (used : shown.length + left = polls)
    (full : ∀ item ∈ shown, ¬ ShowsRoom item) :
    (onBus (waitAndWrite byte giveUp next left)).Wp sends post ⟨shown, written⟩ := by
  have writes : ∀ shown item, ShowsRoom item →
      (onBus (.write .consoleTxData byte.toNat next)).Wp sends post ⟨shown ++ [item], written⟩ := by
    intro shown item room
    refine ⟨⟨rfl, item, by simp, room⟩, ?_⟩
    have followed : sends.follow ⟨shown ++ [item], written⟩
        (.write (.csr .consoleTxData) (.word byte.toNat)) = ⟨[], written ++ [byte]⟩ := by
      simp [sends, Item.toWord]
    rw [followed]
    exact goes
  induction left generalizing shown with
  | zero =>
    intro item
    refine ⟨rfl, ?_⟩
    change (onBus (if item.toWord &&& txFullBit = 0 then _ else giveUp)).Wp sends post
      ⟨shown ++ [item], written⟩
    split
    next room => exact writes shown item room
    next closed =>
      exact quits _ (by simp [← used])
        (List.forall_mem_append.mpr ⟨full, List.forall_mem_singleton.mpr closed⟩)
  | succ left ih =>
    intro item
    refine ⟨rfl, ?_⟩
    change (onBus (if item.toWord &&& txFullBit = 0 then _ else _)).Wp sends post
      ⟨shown ++ [item], written⟩
    split
    next room => exact writes shown item room
    next closed =>
      apply ih
      · simp only [List.length_append, List.length_singleton]
        omega
      · exact List.forall_mem_append.mpr ⟨full, List.forall_mem_singleton.mpr closed⟩

theorem sendLoop_meets (polls : Nat) (rest taken : List UInt8) :
    (onBus (sendLoop polls rest taken.length)).Wp sends (Sent polls (taken ++ rest))
      ⟨[], taken⟩ := by
  induction rest generalizing taken with
  | nil => exact ⟨by simp, by simp, by simp⟩
  | cons byte rest ih =>
    refine waitAndWrite_meets polls (fun shown long full => ?_) ?_ polls [] (by simp) (by simp)
    · exact ⟨by simp, by simp, fun _ => ⟨long, full⟩⟩
    · simpa using ih (taken ++ [byte])

theorem send_meets (polls : Nat) (data : List UInt8) :
    (onBus (send polls data)).Wp sends (Sent polls data) ⟨[], []⟩ :=
  sendLoop_meets polls data []

theorem shown_of_other {o : Op Port Item} (other : ∀ item, o ≠ .read (.csr .consoleTx) item)
    (h : History) : (sends.follow h o).shown = [] := by
  simp only [sends]
  split
  next item => exact absurd rfl (other item)
  · rfl
  · rfl

/-- What was shown is what the last operations read. -/
theorem shown_suffix (ops : List (Op Port Item)) :
    ∃ front, ops = front ++ (sends.after ⟨[], []⟩ ops).shown.map (.read (.csr .consoleTx)) ∧
      ∀ item, front.getLast? ≠ some (.read (.csr .consoleTx) item) := by
  induction ops using List.reverseRecOn with
  | nil => exact ⟨[], by simp [Monitor.after], by simp⟩
  | append_singleton ops o ih =>
    obtain ⟨front, split, ends⟩ := ih
    rw [sends.after_concat]
    by_cases polled : ∃ item, o = .read (.csr .consoleTx) item
    · obtain ⟨item, rfl⟩ := polled
      refine ⟨front, ?_, ends⟩
      conv_lhs => rw [split]
      simp [sends]
    · have other : ∀ item, o ≠ .read (.csr .consoleTx) item := fun item same => polled ⟨item, same⟩
      refine ⟨ops ++ [o], by simp [shown_of_other other], fun item last => ?_⟩
      exact other item (by simpa using last)

/-! ## The bytes that enter the FIFO -/

def entering : Obs rxDepth txDepth Nat → List UInt8
  | .edge s c => if c.rst then [] else s.txFifo.stored (s.txSink c)
  | .op _ | .called | .returned _ => []

/-- Bytes stored in `tx_fifo` so far. -/
def entered (trace : List (Obs rxDepth txDepth Nat)) : List UInt8 := trace.flatMap entering

/-- Bytes of the data writes in flight. -/
def underway (flight : List (Reg × Nat)) : List UInt8 :=
  flight.filterMap fun write =>
    if write.1 = .consoleTxData then some (UInt8.ofNat write.2) else none

/-- Every write is delivered, none of them into a reset, and there is no other writer. -/
def Undisturbed : Event Empty → Prop
  | .cycle env lands => env.consoleTxData = none ∧ (lands = true → env.rst = false)
  | .lost => False
  | .host _ | .calls _ | .returns => True

def history (s : Sys rxDepth txDepth Nat) : History :=
  sends.after ⟨[], []⟩ (operations s.trace)

theorem step_roomy {s : State rxDepth txDepth} (bounded : TxAccounting.LevelBounded s)
    (room : s.txFull = false) {c : Cycle} (silent : c.consoleTxData = none) :
    (s.step c).txFull = false := by
  have differs : s.txFifo.level ≠ txDepth := by simpa [State.txFull] using room
  have level : (s.step c).txFifo.level ≤ s.txFifo.level := by
    cases hrst : c.rst with
    | true => simp [State.step, hrst]
    | false =>
      have sink : s.txSink c = none := by simp [State.txSink, silent]
      simpa [State.step, hrst, sink] using s.txFifo.step_level_le none c.phySinkReady
  unfold TxAccounting.LevelBounded at bounded
  simp only [State.txFull, decide_eq_false_iff_not]
  omega

/-- A poll that shows room tells the truth. -/
theorem room_of_shown {s : State rxDepth txDepth}
    (shows : ShowsRoom (.word (readCsr s .consoleTx))) : s.txFull = false :=
  (txWord_full s.consoleTx (Nat.mod_lt _ (by decide))).mp shows

/-- Between a check and its write, and until the write is stored, there is room. -/
structure Careful (first : State rxDepth txDepth) (s : Sys rxDepth txDepth Nat) : Prop where
  bounded : TxAccounting.LevelBounded s.bridge
  stream : entered s.trace ++ underway s.flight = (history s).written
  landed : (history s).shown ≠ [] → s.flight = []
  room : ∀ item, (history s).shown.getLast? = some item → ShowsRoom item →
    s.bridge.txFull = false
  single : s.flight = [] ∨
    ∃ value, s.flight = [(.consoleTxData, value)] ∧ s.bridge.txFull = false
  quiet : ∀ b c, .edge b c ∈ s.trace → b.errTxWriteWhenFull c = false
  clean : s.bridge.sticky 1 = true → first.sticky 1 = true

theorem step_clean {s : State rxDepth txDepth} {c : Cycle} (quiet : s.errTxWriteWhenFull c = false)
    (set : (s.step c).sticky 1 = true) : s.sticky 1 = true := by
  simp only [State.step, State.nextSticky, State.errSource, quiet] at set
  split at set
  · simp at *
  · split at set
    · simp at set
    · exact set

theorem Careful.edge {first : State rxDepth txDepth} {s : Sys rxDepth txDepth Nat}
    (careful : Careful first s) {env : Cycle} (silent : env.consoleTxData = none) :
    Careful first { s with
      bridge := s.bridge.step env, trace := s.trace ++ [.edge s.bridge env] } := by
  have sink : s.bridge.txSink env = none := by simp [State.txSink, silent]
  have nothing : entering (.edge s.bridge env : Obs rxDepth txDepth Nat) = [] := by
    simp [entering, sink, Fifo.stored]
  have calm : s.bridge.errTxWriteWhenFull env = false := by
    simp [State.errTxWriteWhenFull, silent]
  refine ⟨TxAccounting.step_levelBounded _ _ careful.bounded, ?_, ?_, ?_, ?_, ?_, ?_⟩
  · simpa [entered, nothing, history] using careful.stream
  · simpa [history] using careful.landed
  · intro item last shows
    exact step_roomy careful.bounded (careful.room item (by simpa [history] using last) shows)
      silent
  · rcases careful.single with none | ⟨value, one, room⟩
    · exact .inl none
    · exact .inr ⟨value, one, step_roomy careful.bounded room silent⟩
  · intro b c member
    rcases List.mem_append.mp member with old | new
    · exact careful.quiet b c old
    · obtain ⟨rfl, rfl⟩ : b = s.bridge ∧ c = env := by simpa using new
      exact calm
  · exact fun set => careful.clean (step_clean calm set)

/-- The write in flight meets a FIFO with room and is stored. -/
theorem Careful.lands {first : State rxDepth txDepth} {s : Sys rxDepth txDepth Nat}
    (careful : Careful first s) {env : Cycle} (running : env.rst = false) {reg : Reg} {value : Nat}
    {rest : List (Reg × Nat)} (head : s.flight = (reg, value) :: rest) :
    Careful first { s with
      bridge := s.bridge.step (strobe env value reg)
      flight := rest
      trace := s.trace ++ [.edge s.bridge (strobe env value reg)] } := by
  obtain ⟨rfl, rfl, room⟩ : reg = .consoleTxData ∧ rest = [] ∧ s.bridge.txFull = false := by
    rcases careful.single with none | ⟨other, one, room⟩
    · simp [none] at head
    · have same := head.symm.trans one
      simp only [List.cons.injEq, Prod.mk.injEq] at same
      exact ⟨same.1.1, same.2, room⟩
  have byte : entering (.edge s.bridge (strobe env value .consoleTxData) :
      Obs rxDepth txDepth Nat) = [UInt8.ofNat value] := by
    have written := TxAccounting.stored_eq_written s.bridge (strobe env value .consoleTxData)
      careful.bounded
    simp only [entering, written]
    simp [strobe, running, TxAccounting.written, State.consoleTx, room]
  have calm : s.bridge.errTxWriteWhenFull (strobe env value .consoleTxData) = false := by
    simp [State.errTxWriteWhenFull, room]
  have unread : (history s).shown = [] := by
    by_contra some
    simp [careful.landed some] at head
  have stream := careful.stream
  rw [head] at stream
  refine ⟨TxAccounting.step_levelBounded _ _ careful.bounded, ?_, fun _ => rfl, ?_, .inl rfl,
    ?_, fun set => careful.clean (step_clean calm set)⟩
  · simpa [entered, byte, history, underway] using stream
  · intro item last
    have none : (history s).shown.getLast? = some item := by simpa [history] using last
    simp [unread] at none
  · intro b c member
    rcases List.mem_append.mp member with old | new
    · exact careful.quiet b c old
    · obtain ⟨rfl, rfl⟩ : b = s.bridge ∧ c = strobe env value .consoleTxData := by simpa using new
      exact calm

theorem Careful.op {first : State rxDepth txDepth} {s : Sys rxDepth txDepth Nat}
    (careful : Careful first s) (o : Op Port Item) (next : Client Nat) (flight : List (Reg × Nat))
    (stream : entered s.trace ++ underway flight = (sends.follow (history s) o).written)
    (landed : (sends.follow (history s) o).shown ≠ [] → flight = [])
    (room : ∀ item, (sends.follow (history s) o).shown.getLast? = some item → ShowsRoom item →
      s.bridge.txFull = false)
    (single : flight = [] ∨
      ∃ value, flight = [(.consoleTxData, value)] ∧ s.bridge.txFull = false) :
    Careful first ⟨s.bridge, some next, flight, s.trace ++ [.op o]⟩ := by
  have followed : history (⟨s.bridge, some next, flight, s.trace ++ [.op o]⟩ :
      Sys rxDepth txDepth Nat) = sends.follow (history s) o := by
    rw [history, operations_append, operations_op, sends.after_concat]
    rfl
  refine ⟨careful.bounded, ?_, ?_, ?_, single, ?_, careful.clean⟩
  · rw [followed]
    simpa [entered, entering] using stream
  · rw [followed]
    exact landed
  · rw [followed]
    exact room
  · intro b c member
    exact careful.quiet b c (by simpa using member)

theorem Careful.step {first : State rxDepth txDepth} {program : Empty → Client Nat}
    {idle : History → Prop} {post : Nat → History → Prop} {s s' : Sys rxDepth txDepth Nat}
    {event : Event Empty} (fair : Undisturbed event) (move : Move program s event s')
    (conforms : Conforms sends ⟨[], []⟩ idle post s) (careful : Careful first s) :
    Careful first s' := by
  cases move with
  | stay => exact careful
  | edge env => exact careful.edge fair.1
  | lands env reg value rest head => exact careful.lands (fair.2 rfl) head
  | read input reg next reading landed =>
    obtain rfl : reg = .consoleTx := by
      simpa [sends] using (conforms.running _ reading (.word 0)).1
    refine careful.op _ _ _ ?_ (fun _ => landed) ?_ careful.single
    · simpa [sends] using careful.stream
    · intro item last shows
      obtain rfl : .word (readCsr s.bridge .consoleTx) = item := by simpa [sends] using last
      exact room_of_shown shows
  | input input next reading =>
    have refused := (conforms.running _ reading (.word 0)).1
    simp [sends] at refused
  | write input reg item next writing =>
    obtain ⟨same, shown, last, shows⟩ := (conforms.running _ writing).1
    obtain rfl : reg = .consoleTxData := by simpa using same
    have landed : s.flight = [] := by
      apply careful.landed
      rintro (none : (sends.after ⟨[], []⟩ (operations s.trace)).shown = [])
      simp [none] at last
    have stream := careful.stream
    rw [landed] at stream ⊢
    refine careful.op _ _ _ ?_ (by simp [sends]) (by simp [sends])
      (.inr ⟨item.toWord, rfl, careful.room shown last shows⟩)
    simp [sends, ← stream, underway]
  | output input port item next writing stream =>
    exact absurd (conforms.running _ writing).1.1 (stream _)
  | lost => exact absurd fair id
  | calls call => exact call.elim
  | returns value finished =>
    refine ⟨careful.bounded, ?_, ?_, ?_, careful.single, ?_, careful.clean⟩
    · simpa [entered, entering, history] using careful.stream
    · simpa [history] using careful.landed
    · simpa [history] using careful.room
    · intro b c member
      exact careful.quiet b c (by simpa using member)

/-! ## A call of `send` -/

/-- A call of `send` against a bridge in state `first`. -/
def started (polls : Nat) (data : List UInt8) (first : State rxDepth txDepth) :
    Sys rxDepth txDepth Nat :=
  .start first (some (onBus (send polls data)))

/-- The system after the events; there are no further calls. -/
def session (s : Sys rxDepth txDepth Nat) (events : List (Event Empty)) : Sys rxDepth txDepth Nat :=
  run (step fun call : Empty => call.elim) s events

/-- `count` is the result of the call. -/
def Returns (s : Sys rxDepth txDepth Nat) (count : Nat) : Prop :=
  s.session = some (.ret count) ∨ .returned count ∈ s.trace

/-- A host that has returned stays at rest with its result. -/
def Rests (polls : Nat) (data : List UInt8) (s : Sys rxDepth txDepth Nat) : Prop :=
  ∀ count, .returned count ∈ s.trace → s.session = none ∧ Sent polls data count (history s)

theorem Rests.step {polls : Nat} {data : List UInt8} {program : Empty → Client Nat}
    {idle : History → Prop} {s s' : Sys rxDepth txDepth Nat} {event : Event Empty}
    (move : Move program s event s')
    (conforms : Conforms sends ⟨[], []⟩ idle (Sent polls data) s) (rests : Rests polls data s) :
    Rests polls data s' := by
  have busy : ∀ {p : Client Nat} {o : Op Port Item} {s' : Sys rxDepth txDepth Nat},
      s.session = some p → s'.trace = s.trace ++ [.op o] → Rests polls data s' := by
    intro p o s' running more count member
    have old : .returned count ∈ s.trace := by simpa [more] using member
    simp [(rests count old).1] at running
  cases move with
  | stay => exact rests
  | edge env => simpa [Rests, history] using rests
  | lands env reg value rest head => simpa [Rests, history] using rests
  | read input reg next reading landed => exact busy reading rfl
  | input input next reading => exact busy reading rfl
  | write input reg item next writing => exact busy writing rfl
  | output input port item next writing stream => exact busy writing rfl
  | lost => exact rests
  | calls call => exact call.elim
  | returns value finished =>
    have sent : Sent polls data value (history s) := conforms.running _ finished
    intro count member
    refine ⟨rfl, ?_⟩
    rcases List.mem_append.mp member with old | new
    · simp [(rests count old).1] at finished
    · obtain rfl : count = value := by simpa using new
      simpa [history] using sent

/-- What every state of the call satisfies. -/
structure Exact (polls : Nat) (data : List UInt8) (first : State rxDepth txDepth)
    (s : Sys rxDepth txDepth Nat) : Prop where
  conforms : Conforms sends ⟨[], []⟩ (fun _ => True) (Sent polls data) s
  careful : Careful first s
  rests : Rests polls data s

theorem started_exact (polls : Nat) (data : List UInt8) {first : State rxDepth txDepth}
    (bounded : TxAccounting.LevelBounded first) :
    Exact polls data first (started polls data first) := by
  refine ⟨⟨?_, fun _ => trivial, ?_⟩, ⟨bounded, rfl, ?_, ?_, .inl rfl, ?_, id⟩, ?_⟩
  · simp [started, Sys.start, Monitor.Allowed]
  · intro p same
    obtain rfl : onBus (send polls data) = p := Option.some.inj same
    exact send_meets polls data
  · exact fun _ => rfl
  · simp [history, started, Sys.start, Monitor.after]
  · simp [started, Sys.start]
  · simp [Rests, started, Sys.start]

theorem session_exact (polls : Nat) (data : List UInt8) {first : State rxDepth txDepth}
    (bounded : TxAccounting.LevelBounded first) (events : List (Event Empty))
    (fair : ∀ event ∈ events, Undisturbed event) :
    Exact polls data first (session (started polls data first) events) := by
  refine run_invariant (Exact polls data first) Undisturbed ?_ events fair _
    (started_exact polls data bounded)
  intro s event calm exact
  have move := step_moves (fun call : Empty => call.elim) s event
  exact ⟨exact.conforms.step (fun _ _ _ => trivial) (fun call => call.elim) move,
    exact.careful.step calm move exact.conforms, exact.rests.step move exact.conforms⟩

theorem Exact.sent {polls : Nat} {data : List UInt8} {first : State rxDepth txDepth}
    {s : Sys rxDepth txDepth Nat} (exact : Exact polls data first s) {count : Nat}
    (returns : Returns s count) : Sent polls data count (history s) := by
  rcases returns with finished | returned
  · exact exact.conforms.running _ finished
  · exact (exact.rests count returned).2

/-- `send` from any occupancy of the FIFO, under any drain schedule: every write follows a
poll that showed room, no write meets a full FIFO, and the result counts the bytes that
were stored, those before the first one whose bounded wait saw a full FIFO throughout. -/
theorem send_exact (polls : Nat) (data : List UInt8) (first : State rxDepth txDepth)
    (bounded : TxAccounting.LevelBounded first) (events : List (Event Empty))
    (fair : ∀ event ∈ events, Undisturbed event) :
    let s := session (started polls data first) events
    (∀ before item later,
      operations s.trace = before ++ .write (.csr .consoleTxData) item :: later →
      ∃ earlier shown, before = earlier ++ [.read (.csr .consoleTx) shown] ∧ ShowsRoom shown) ∧
    (∀ b c, .edge b c ∈ s.trace → b.errTxWriteWhenFull c = false) ∧
    (s.bridge.sticky 1 = true → first.sticky 1 = true) ∧
    ∀ count, Returns s count →
      count ≤ data.length ∧ entered s.trace ++ underway s.flight = data.take count ∧
      (count < data.length → ∃ front, ∃ shown : List Item,
        operations s.trace = front ++ shown.map (.read (.csr .consoleTx)) ∧
        (∀ item, front.getLast? ≠ some (.read (.csr .consoleTx) item)) ∧
        shown.length = polls + 1 ∧ ∀ item ∈ shown, ¬ ShowsRoom item) := by
  intro s
  have exact : Exact polls data first s := session_exact polls data bounded events fair
  refine ⟨?_, exact.careful.quiet, exact.careful.clean, ?_⟩
  · intro before item later split
    obtain ⟨_, shown, last, room⟩ := exact.conforms.allowed before _ later split
    obtain ⟨front, polled, _⟩ := shown_suffix before
    obtain ⟨others, shows⟩ := List.getLast?_eq_some_iff.mp last
    refine ⟨front ++ others.map (.read (.csr .consoleTx)), shown, ?_, room⟩
    rw [polled, shows]
    simp
  · intro count returns
    have sent := exact.sent returns
    refine ⟨sent.counted, exact.careful.stream.trans sent.written, fun short => ?_⟩
    obtain ⟨front, polled, ends⟩ := shown_suffix (operations s.trace)
    exact ⟨front, _, polled, ends, sent.waited short⟩

/-- Room for two bytes and a PHY that takes none. -/
def stuck : List (Event Empty) :=
  [.host [], .host [], .cycle quiet true, .host [], .host [], .cycle quiet true, .host [],
   .host [], .returns]

def stuckSession : Sys 4096 2 Nat := session (started 1 [0x41, 0x42, 0x43] powerOn) stuck

theorem send_exact_stuck :
    entered stuckSession.trace = [0x41, 0x42] ∧ stuckSession.bridge.sticky 1 = false ∧
    ∃ front, ∃ shown : List Item,
      operations stuckSession.trace = front ++ shown.map (.read (.csr .consoleTx)) ∧
      shown.length = 2 ∧ ∀ item ∈ shown, ¬ ShowsRoom item := by
  have fair : ∀ event ∈ stuck, Undisturbed event := by simp [stuck, Undisturbed, quiet]
  have exact := send_exact 1 [0x41, 0x42, 0x43] (powerOn : State 4096 2) (Nat.zero_le _) stuck fair
  obtain ⟨-, -, clean, counts⟩ := exact
  have landed : stuckSession.flight = [] := by decide +kernel
  have returned : Returns stuckSession 2 := by
    right
    have last : ∃ front, stuckSession.trace = front ++ [.returned 2] := ⟨_, rfl⟩
    obtain ⟨front, last⟩ := last
    simp [last]
  obtain ⟨-, stream, waits⟩ := counts 2 returned
  obtain ⟨front, shown, polled, -, long, full⟩ := waits (by decide)
  refine ⟨?_, ?_, front, shown, polled, long, full⟩
  · change entered stuckSession.trace ++ underway stuckSession.flight = _ at stream
    simpa [landed, underway] using stream
  · exact Bool.eq_false_iff.mpr fun set => by simpa [powerOn] using clean set

end Remote8008.Guarantees.SendExact
