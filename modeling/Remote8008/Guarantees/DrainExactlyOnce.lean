import Remote8008.System.ConsoleSession

/-!
# Every console byte is delivered exactly once

Source: host/b8008net/console.py:92-120. The read of `console_rx` and the pop
that consumes the byte are separate, so a read may be repeated freely. What is
left to show is that the host's view and the board's queue stay aligned: between
a read that saw a byte and the pop of that byte nothing else consumes, and at
most one pop is ever under way.
-/

namespace Remote8008.Guarantees.DrainExactlyOnce
open Lib.Interaction Source.Console System.ConsoleSession

variable {rxDepth txDepth : Nat}

def popsInFlight (flight : List (Reg × Nat)) : Nat :=
  flight.countP fun write => write.1 = .consoleRxPop

@[simp] theorem popsInFlight_nil : popsInFlight [] = 0 := rfl

@[simp] theorem popsInFlight_cons (reg : Reg) (value : Nat) (rest : List (Reg × Nat)) :
    popsInFlight ((reg, value) :: rest) =
      popsInFlight rest + if reg = .consoleRxPop then 1 else 0 := by
  simp [popsInFlight, List.countP_cons]

@[simp] theorem popsInFlight_concat (flight : List (Reg × Nat)) (reg : Reg) (value : Nat) :
    popsInFlight (flight ++ [(reg, value)]) =
      popsInFlight flight + if reg = .consoleRxPop then 1 else 0 := by
  simp [popsInFlight, List.countP_append, List.countP_cons]

/-- A word read from `console_rx` that has the valid bit shows the head of the queue. -/
def ShowsHead (b : Board rxDepth txDepth) (word : Nat) : Prop :=
  word &&& rxValidBit ≠ 0 → ∃ rest, b.rx = UInt8.ofNat (word &&& rxDataMask) :: rest

theorem readReg_showsHead (b : Board rxDepth txDepth) : ShowsHead b (b.readReg .consoleRx) := by
  intro valid
  simp only [Board.readReg, ne_eq, rxWord_valid, rxWord_data, UInt8.ofNat_toNat] at valid ⊢
  unfold Board.consoleRx at valid ⊢
  cases queued : b.rx with
  | nil => simp [queued] at valid
  | cons head rest => exact ⟨rest, rfl⟩

theorem ShowsHead.arrive {b : Board rxDepth txDepth} {word : Nat} (shows : ShowsHead b word)
    (byte : UInt8) : ShowsHead (b.arrive byte) word := by
  intro valid
  obtain ⟨rest, head⟩ := shows valid
  exact ⟨rest ++ [byte], by simp [Board.arrive, head]⟩

/-- Programs that leave the receive queue alone. -/
abbrev NeverPops (p : Host Result) : Prop :=
  p.Always (fun reg _ => reg ≠ .consoleRxPop) fun result => result.received = []

theorem waitAndWrite_neverPops (data : List UInt8) (byte : UInt8) (giveUp written : Host Nat)
    (left : Nat) (quits : NeverPops (giveUp.map (.sent data)))
    (goes : NeverPops (written.map (.sent data))) :
    NeverPops ((waitAndWrite byte giveUp written left).map (.sent data)) := by
  induction left with
  | zero =>
    intro word
    dsimp only
    split
    · exact ⟨by simp, goes⟩
    · exact quits
  | succ left ih =>
    intro word
    dsimp only
    split
    · exact ⟨by simp, goes⟩
    · exact ih

theorem sendLoop_neverPops (polls : Nat) (data rest : List UInt8) (count : Nat) :
    NeverPops ((sendLoop polls rest count).map (.sent data)) := by
  induction rest generalizing count with
  | nil => rfl
  | cons byte rest ih => exact waitAndWrite_neverPops data byte _ _ polls rfl (ih (count + 1))

theorem checkErrors_neverPops (clear : Bool) :
    NeverPops ((checkErrors clear).map .errors) := by
  intro word
  dsimp only
  split
  · exact ⟨by simp, rfl⟩
  · rfl

/-! ## The alignment of host and board -/

/-- Where the session stands; `pending` is what the drain in progress has popped so far. -/
inductive Phase (s : Sys rxDepth txDepth) (pending : List UInt8) : Prop where
  | idle (session : s.session = none) (nothing : pending = [])
  | draining (left : Nat) (session : s.session = some ((drainLoop left pending).map .drained))
      (shown : ∀ word ∈ s.answers, ShowsHead s.board word)
  | popping (left : Nat) (byte : UInt8) (queued : List UInt8)
      (session : s.session = some (.write .consoleRxPop 1
        ((drainLoop left (pending ++ [byte])).map .drained)))
      (landed : s.flight = []) (head : s.board.rx = byte :: queued)
  | quiet (p : Host Result) (session : s.session = some p) (never : NeverPops p)
      (nothing : pending = [])

structure Aligned (s : Sys rxDepth txDepth) (pending : List UInt8) : Prop where
  stream : s.received ++ pending ++ s.board.rx.drop (popsInFlight s.flight) = s.emitted
  enough : popsInFlight s.flight ≤ s.board.rx.length
  issued : s.popsIssued = (s.received ++ pending).length
  clean : s.board.sticky 2 = false
  phase : Phase s pending

theorem drainLoop_reading {left : Nat} {out : List UInt8} {reg : Reg} {next : Nat → Host Result}
    (reading : (drainLoop left out).map Result.drained = .read reg next) :
    reg = .consoleRx ∧ ∃ fewer, ∀ word, next word =
      if word &&& rxValidBit = 0 then .ret (.drained out)
      else .write .consoleRxPop 1
        ((drainLoop fewer (out ++ [UInt8.ofNat (word &&& rxDataMask)])).map .drained) := by
  cases left with
  | zero => cases reading
  | succ fewer =>
    simp only [drainLoop, Prog.map, Prog.read.injEq] at reading
    obtain ⟨rfl, rfl⟩ := reading
    refine ⟨rfl, fewer, fun word => ?_⟩
    by_cases empty : word &&& rxValidBit = 0 <;> simp [empty, Prog.map]

theorem drainLoop_finished {left : Nat} {out : List UInt8} {result : Result}
    (finished : (drainLoop left out).map Result.drained = .ret result) : result = .drained out := by
  cases left with
  | zero => cases finished; rfl
  | succ fewer => cases finished

theorem drainLoop_not_writing {left : Nat} {out : List UInt8} {reg : Reg} {value : Nat}
    {next : Host Result} : (drainLoop left out).map Result.drained ≠ .write reg value next := by
  cases left <;> nofun

theorem Aligned.arrives {s : Sys rxDepth txDepth} {pending : List UInt8} (inv : Aligned s pending)
    (byte : UInt8) : Aligned
      { s with board := s.board.arrive byte, emitted := s.emitted ++ [byte] } pending where
  stream := by
    have stream := inv.stream
    simp only [Board.arrive, Sys.received] at stream ⊢
    rw [List.drop_append_of_le_length inv.enough, ← List.append_assoc, stream]
  enough := by
    have enough := inv.enough
    simp only [Board.arrive, List.length_append, List.length_singleton]
    omega
  issued := inv.issued
  clean := inv.clean
  phase := by
    cases inv.phase with
    | idle session nothing => exact .idle session nothing
    | draining left session shown =>
      exact .draining left session fun word member => (shown word member).arrive byte
    | popping left b queued session landed head =>
      exact .popping left b (queued ++ [byte]) session landed (by simp [Board.arrive, head])
    | quiet p session never nothing => exact .quiet p session never nothing

theorem Aligned.calls {s : Sys rxDepth txDepth} {pending : List UInt8}
    (inv : Aligned s pending) (current : ReadsCurrent s) (polls : Nat) (call : Call)
    (idle : s.session = none) :
    Aligned { s with session := some (call.program polls) } pending where
  stream := inv.stream
  enough := inv.enough
  issued := inv.issued
  clean := inv.clean
  phase := by
    have fresh := current.fresh (by simp [idle])
    obtain rfl : pending = [] := by
      cases inv.phase <;> simp_all
    cases call with
    | drain => exact .draining drainMaxBytes rfl (by simp [fresh])
    | send data => exact .quiet _ rfl (sendLoop_neverPops polls data data 0) rfl
    | checkErrors clear => exact .quiet _ rfl (checkErrors_neverPops clear) rfl

theorem Aligned.answered {s : Sys rxDepth txDepth} {pending : List UInt8} (inv : Aligned s pending)
    {reg : Reg} {next : Nat → Host Result} (reading : s.session = some (.read reg next)) :
    Aligned { s with answers := s.answers ++ [s.board.readReg reg] } pending where
  stream := inv.stream
  enough := inv.enough
  issued := inv.issued
  clean := inv.clean
  phase := by
    cases inv.phase with
    | idle session nothing => exact .idle session nothing
    | draining left session shown =>
      refine .draining left session fun word member => ?_
      obtain ⟨rfl, -⟩ := drainLoop_reading (Option.some.inj (session.symm.trans reading))
      rcases List.mem_append.mp member with earlier | now
      · exact shown word earlier
      · rw [List.mem_singleton.mp now]
        exact readReg_showsHead s.board
    | popping left byte queued session landed head =>
      exact .popping left byte queued session landed head
    | quiet p session never nothing => exact .quiet p session never nothing

theorem Aligned.readReturns {s : Sys rxDepth txDepth} {pending : List UInt8}
    (inv : Aligned s pending) (current : ReadsCurrent s) {reg : Reg} {next : Nat → Host Result}
    {word : Nat} (reading : s.session = some (.read reg next)) (taken : word ∈ s.answers) :
    Aligned { s with session := some (next word), answers := [] } pending where
  stream := inv.stream
  enough := inv.enough
  issued := inv.issued
  clean := inv.clean
  phase := by
    cases inv.phase with
    | idle session nothing => simp [session] at reading
    | draining left session shown =>
      obtain ⟨-, fewer, continues⟩ :=
        drainLoop_reading (Option.some.inj (session.symm.trans reading))
      rw [continues word]
      split
      · exact .draining 0 rfl (by simp)
      · obtain ⟨queued, head⟩ := shown word taken ‹_›
        exact .popping fewer _ queued rfl (current (List.ne_nil_of_mem taken)).1 head
    | popping left byte queued session landed head => simp [session] at reading
    | quiet p session never nothing =>
      obtain rfl : p = .read reg next := Option.some.inj (session.symm.trans reading)
      exact .quiet _ rfl (never word) nothing

/-- Issuing a pop moves the byte it consumes from the queue to the host. -/
theorem Aligned.writes {s : Sys rxDepth txDepth} {pending : List UInt8}
    (inv : Aligned s pending) (current : ReadsCurrent s) {reg : Reg} {value : Nat}
    {next : Host Result} (writing : s.session = some (.write reg value next)) :
    ∃ pending', Aligned { s with
      session := some next
      flight := s.flight ++ [(reg, value)]
      popsIssued := if reg = .consoleRxPop then s.popsIssued + 1 else s.popsIssued } pending' := by
  have fresh := current.fresh (by simp [writing])
  have stream := inv.stream
  have enough := inv.enough
  have issued := inv.issued
  cases inv.phase with
  | idle session nothing => simp [session] at writing
  | draining left session shown =>
    exact absurd (Option.some.inj (session.symm.trans writing)) drainLoop_not_writing
  | popping left byte queued session landed head =>
    obtain ⟨rfl, rfl, rfl⟩ : Reg.consoleRxPop = reg ∧ 1 = value ∧ _ = next := by
      simpa [session] using writing
    refine ⟨pending ++ [byte], ?_, ?_, ?_, inv.clean,
      .draining left rfl (by simp [fresh])⟩
    · simpa [landed, head, Sys.received] using stream
    · simp [landed, head]
    · simp only [if_true, issued, Sys.received, List.length_append, List.length_singleton]
      omega
  | quiet p session never nothing =>
    obtain rfl : p = .write reg value next := Option.some.inj (session.symm.trans writing)
    have other : reg ≠ .consoleRxPop := never.1
    refine ⟨pending, ?_, ?_, ?_, inv.clean, .quiet _ rfl never.2 nothing⟩
    · simpa [other, Sys.received] using stream
    · simpa [other] using enough
    · simpa [other, Sys.received] using issued

/-- The phase survives the head of the flight leaving it: no answer and no pop
decision can be outstanding while a write is under way. -/
theorem Aligned.phase_landing {s s' : Sys rxDepth txDepth} {pending : List UInt8}
    (inv : Aligned s pending) (current : ReadsCurrent s) {write : Reg × Nat}
    {rest : List (Reg × Nat)} (first : s.flight = write :: rest)
    (session : s'.session = s.session) (answers : s'.answers = s.answers) : Phase s' pending := by
  have none := current.unanswered first
  cases inv.phase with
  | idle idle nothing => exact .idle (session.trans idle) nothing
  | draining left running shown =>
    exact .draining left (session.trans running) (by simp [answers, none])
  | popping left byte queued running landed head => simp [landed] at first
  | quiet p running never nothing => exact .quiet p (session.trans running) never nothing

theorem writeReg_rx (b : Board rxDepth txDepth) (value : Nat) {reg : Reg}
    (other : reg ≠ .consoleRxPop) : (b.writeReg value reg).rx = b.rx := by
  cases reg <;> simp_all [Board.writeReg, Board.push, Board.clear]

theorem writeReg_popWhenEmpty (b : Board rxDepth txDepth) (value : Nat) {reg : Reg}
    (other : reg ≠ .consoleRxPop) (clean : b.sticky 2 = false) :
    (b.writeReg value reg).sticky 2 = false := by
  cases reg <;> simp_all [Board.writeReg, Board.push, Board.clear]
  split <;> simp [clean]

theorem Aligned.delivered {s : Sys rxDepth txDepth} {pending : List UInt8}
    (inv : Aligned s pending) (current : ReadsCurrent s) {reg : Reg} {value : Nat}
    {rest : List (Reg × Nat)} (first : s.flight = (reg, value) :: rest) (entered : List UInt8) :
    Aligned { s with board := s.board.writeReg value reg, flight := rest, entered := entered }
      pending := by
  have stream := inv.stream
  have enough := inv.enough
  have fresh := current.unanswered first
  have phase : Phase { s with
      board := s.board.writeReg value reg, flight := rest, entered := entered } pending :=
    inv.phase_landing current first rfl rfl
  rw [first, popsInFlight_cons] at stream enough
  by_cases pops : reg = .consoleRxPop
  · subst reg
    simp only [if_true] at stream enough
    cases queued : s.board.rx with
    | nil => simp [queued] at enough
    | cons head tail =>
      have popped : s.board.writeReg value .consoleRxPop = { s.board with rx := tail } := by
        simp [Board.writeReg, Board.pop, queued]
      rw [queued] at stream enough
      rw [popped] at phase ⊢
      exact ⟨by simpa [Sys.received] using stream, by simpa using enough, inv.issued, inv.clean,
        phase⟩
  · rw [if_neg pops, Nat.add_zero] at stream enough
    have same := writeReg_rx s.board value pops
    exact ⟨by rw [same]; exact stream, by rw [same]; exact enough, inv.issued,
      writeReg_popWhenEmpty s.board value pops inv.clean, phase⟩

theorem Aligned.lost {s : Sys rxDepth txDepth} {pending : List UInt8}
    (inv : Aligned s pending) (current : ReadsCurrent s) {reg : Reg} {value : Nat}
    {rest : List (Reg × Nat)} (first : s.flight = (reg, value) :: rest)
    (other : reg ≠ .consoleRxPop) : Aligned { s with flight := rest } pending := by
  have stream := inv.stream
  have enough := inv.enough
  rw [first, popsInFlight_cons, if_neg other, Nat.add_zero] at stream enough
  exact ⟨stream, enough, inv.issued, inv.clean,
    inv.phase_landing current first rfl rfl⟩

theorem Aligned.returns {s : Sys rxDepth txDepth} {pending : List UInt8} (inv : Aligned s pending)
    {result : Result} (finished : s.session = some (.ret result)) :
    Aligned { s with session := none, log := s.log ++ [result] } [] := by
  have given : result.received = pending := by
    cases inv.phase with
    | idle session nothing => simp [session] at finished
    | draining left session shown =>
      rw [drainLoop_finished (Option.some.inj (session.symm.trans finished))]
      rfl
    | popping left byte queued session landed head => simp [session] at finished
    | quiet p session never nothing =>
      obtain rfl : p = .ret result := Option.some.inj (session.symm.trans finished)
      exact Eq.trans never nothing.symm
  have whole : (s.log ++ [result]).flatMap Result.received = s.received ++ pending := by
    simp [Sys.received, given]
  refine ⟨?_, inv.enough, ?_, inv.clean, .idle rfl rfl⟩
  · simpa [Sys.received, whole] using inv.stream
  · simpa [Sys.received, whole] using inv.issued

/-- One move keeps host and board aligned, unless it loses a pop. -/
theorem aligned_step {polls : Nat} {s s' : Sys rxDepth txDepth} {event : Event}
    (kept : event ≠ .lost .consoleRxPop) (move : Move polls s event s')
    (current : ReadsCurrent s) (inv : ∃ pending, Aligned s pending) :
    ∃ pending, Aligned s' pending := by
  obtain ⟨pending, inv⟩ := inv
  cases move with
  | disabled => exact ⟨pending, inv⟩
  | arrives byte => exact ⟨pending, inv.arrives byte⟩
  | phyTakes =>
    refine ⟨pending, inv.stream, inv.enough, inv.issued, inv.clean, ?_⟩
    cases inv.phase with
    | idle session nothing => exact .idle session nothing
    | draining left session shown => exact .draining left session shown
    | popping left byte queued session landed head =>
      exact .popping left byte queued session landed head
    | quiet p session never nothing => exact .quiet p session never nothing
  | calls call idle => exact ⟨pending, inv.calls current polls call idle⟩
  | answered reg next reading landed => exact ⟨pending, inv.answered reading⟩
  | readReturns index reg next word reading taken =>
    exact ⟨pending, inv.readReturns current reading taken⟩
  | writes reg value next writing => exact inv.writes current writing
  | delivered reg value rest first => exact ⟨pending, inv.delivered current first _⟩
  | lost reg value rest first =>
    exact ⟨pending, inv.lost current first fun pops => kept (by rw [pops])⟩
  | returns result finished => exact ⟨[], inv.returns finished⟩

theorem start_aligned : Aligned (Sys.start : Sys rxDepth txDepth) [] :=
  ⟨rfl, Nat.le_refl _, rfl, rfl, .idle rfl rfl⟩

variable (rxDepth txDepth) in
theorem after_aligned (polls : Nat) (events : List Event)
    (kept : Event.lost .consoleRxPop ∉ events) :
    ∃ pending, Aligned (after polls events : Sys rxDepth txDepth) pending :=
  after_invariant ⟨[], start_aligned⟩
    (fun _ _ _ kept move current inv => aligned_step kept move current inv) events
    fun _ member lost => kept (lost ▸ member)

/-- In every state of every session that loses no pop: what the finished drains
returned, what the drain in progress holds and what is queued behind the pops
under way make up the bytes that arrived, in order; one pop was issued per byte
taken; and a pop always meets a byte. -/
theorem drain_exactly_once (polls : Nat) (events : List Event)
    (kept : Event.lost .consoleRxPop ∉ events) :
    let s : Sys rxDepth txDepth := after polls events
    (∃ pending,
      s.received ++ pending ++ s.board.rx.drop (popsInFlight s.flight) = s.emitted ∧
      s.popsIssued = (s.received ++ pending).length ∧
      (s.session = none → pending = [])) ∧
    (s.Settled → s.received ++ s.board.rx = s.emitted) ∧
    (∀ value rest, s.flight = (.consoleRxPop, value) :: rest → s.board.rx ≠ []) ∧
    s.board.sticky 2 = false := by
  intro s
  obtain ⟨pending, inv⟩ := after_aligned rxDepth txDepth polls events kept
  have nothing : s.session = none → pending = [] := by
    intro idle
    cases inv.phase <;> simp_all [s]
  refine ⟨⟨pending, inv.stream, inv.issued, nothing⟩, ?_, ?_, inv.clean⟩
  · rintro ⟨idle, landed⟩
    have stream := inv.stream
    rw [show (after polls events : Sys rxDepth txDepth).flight = [] from landed,
      nothing idle] at stream
    simpa using stream
  · intro value rest first empty
    have enough := inv.enough
    rw [show (after polls events : Sys rxDepth txDepth).flight = _ from first,
      show (after polls events : Sys rxDepth txDepth).board.rx = [] from empty] at enough
    simp at enough

/-- Two bytes arrive, the second between the repeated read and the pop of the first. -/
def repeatedReads : List Event :=
  [.arrives 0x38, .calls .drain, .answered, .answered, .readReturns 1, .arrives 0x3e, .writes,
   .delivered, .answered, .readReturns 0, .writes, .delivered, .answered, .readReturns 0, .returns]

theorem drain_exactly_once_repeated_reads :
    (after 1000 repeatedReads : Sys 4096 256).received = [0x38, 0x3e] ∧
    (after 1000 repeatedReads : Sys 4096 256).board.sticky 2 = false :=
  ⟨by decide +kernel, (drain_exactly_once 1000 repeatedReads (by decide +kernel)).2.2.2⟩

end Remote8008.Guarantees.DrainExactlyOnce
