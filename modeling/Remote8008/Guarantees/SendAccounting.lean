import Remote8008.System.ConsoleSession

/-!
# What `send` counts against what enters the transmit queue

Source: host/b8008net/console.py:123-152. `send` polls `console_tx` until the full
bit is clear and only then writes, so with a single writer the room it saw is still
there when the write lands. The count it returns is therefore the number of bytes
that entered, as long as no write datagram disappears.
-/

namespace Remote8008.Guarantees.SendAccounting
open Lib.Interaction Source.Console System.ConsoleSession

variable {rxDepth txDepth polls : Nat}

/-- Bytes of the `console_tx_data` writes under way. -/
def txInFlight (flight : List (Reg × Nat)) : List UInt8 :=
  flight.filterMap fun write =>
    if write.1 = .consoleTxData then some (UInt8.ofNat write.2) else none

@[simp] theorem txInFlight_nil : txInFlight [] = [] := rfl

theorem txInFlight_data (value : Nat) (rest : List (Reg × Nat)) :
    txInFlight ((.consoleTxData, value) :: rest) = UInt8.ofNat value :: txInFlight rest := by
  simp [txInFlight]

theorem txInFlight_other {reg : Reg} (other : reg ≠ .consoleTxData) (value : Nat)
    (rest : List (Reg × Nat)) : txInFlight ((reg, value) :: rest) = txInFlight rest := by
  simp [txInFlight, other]

theorem txInFlight_concat_other {reg : Reg} (other : reg ≠ .consoleTxData) (value : Nat)
    (flight : List (Reg × Nat)) : txInFlight (flight ++ [(reg, value)]) = txInFlight flight := by
  simp [txInFlight, other]

/-- A word read from `console_tx` without the full bit shows a free place. -/
def ShowsRoom (b : Board rxDepth txDepth) (word : Nat) : Prop :=
  word &&& txFullBit = 0 → b.tx.length < txDepth

theorem readReg_showsRoom (b : Board rxDepth txDepth) : ShowsRoom b (b.readReg .consoleTx) := by
  intro clear
  have narrow : b.consoleTx.level < 2 ^ 9 := Nat.mod_lt _ (by decide)
  have notFull : b.consoleTx.full = false := (txWord_full b.consoleTx narrow).mp clear
  have different : b.tx.length ≠ txDepth := by simpa [Board.consoleTx, Board.full] using notFull
  have fits := b.fits
  omega

/-- Programs that leave the transmit queue alone. -/
abbrev NeverPushes (p : Host Result) : Prop :=
  p.Always (fun reg _ => reg ≠ .consoleTxData) fun result => result.accepted = []

theorem drainLoop_neverPushes (left : Nat) (out : List UInt8) :
    NeverPushes ((drainLoop left out).map .drained) := by
  induction left generalizing out with
  | zero => rfl
  | succ left ih =>
    intro word
    dsimp only
    split
    · rfl
    · exact ⟨by simp, ih _⟩

theorem checkErrors_neverPushes (clear : Bool) :
    NeverPushes ((checkErrors clear).map .errors) := by
  intro word
  dsimp only
  split
  · exact ⟨by simp, rfl⟩
  · rfl

/-! ## The account -/

/-- Where the session stands; `pending` is what the send in progress has written so far. -/
inductive Phase (polls : Nat) (s : Sys rxDepth txDepth) (pending : List UInt8) : Prop where
  | idle (session : s.session = none) (nothing : pending = [])
  | waiting (left : Nat) (byte : UInt8) (rest : List UInt8)
      (session : s.session = some ((waitAndWrite byte (.ret pending.length)
        (sendLoop polls rest (pending.length + 1)) left).map
          (.sent (pending ++ byte :: rest))))
      (shown : ∀ word ∈ s.answers, ShowsRoom s.board word)
  | writing (byte : UInt8) (rest : List UInt8)
      (session : s.session = some (.write .consoleTxData byte.toNat
        ((sendLoop polls rest (pending.length + 1)).map (.sent (pending ++ byte :: rest)))))
      (landed : s.flight = []) (room : s.board.tx.length < txDepth)
  | done (rest : List UInt8)
      (session : s.session = some (.ret (.sent (pending ++ rest) pending.length)))
  | quiet (p : Host Result) (session : s.session = some p) (never : NeverPushes p)
      (nothing : pending = [])

structure Counted (polls : Nat) (s : Sys rxDepth txDepth) (pending : List UInt8) : Prop where
  account : s.accepted ++ pending = s.entered ++ txInFlight s.flight
  room : s.board.tx.length + (txInFlight s.flight).length ≤ txDepth
  clean : s.board.sticky 1 = false
  phase : Phase polls s pending

theorem Phase.of_sendLoop {s : Sys rxDepth txDepth} {pending : List UInt8} (rest : List UInt8)
    (fresh : s.answers = [])
    (session : s.session = some ((sendLoop polls rest pending.length).map
      (.sent (pending ++ rest)))) : Phase polls s pending := by
  cases rest with
  | nil => exact .done [] session
  | cons byte rest => exact .waiting polls byte rest session (by simp [fresh])

theorem waitAndWrite_reading {byte : UInt8} {giveUp written : Host Nat} {left : Nat}
    {data : List UInt8} {reg : Reg} {next : Nat → Host Result}
    (reading : (waitAndWrite byte giveUp written left).map (.sent data) = .read reg next) :
    reg = .consoleTx ∧ ∀ word, next word =
      if word &&& txFullBit = 0 then
        .write .consoleTxData byte.toNat (written.map (.sent data))
      else match left with
        | 0 => giveUp.map (.sent data)
        | fewer + 1 => (waitAndWrite byte giveUp written fewer).map (.sent data) := by
  cases left <;>
  · simp only [waitAndWrite, Prog.map, Prog.read.injEq] at reading
    obtain ⟨rfl, rfl⟩ := reading
    refine ⟨rfl, fun word => ?_⟩
    by_cases clear : word &&& txFullBit = 0 <;> simp [clear, Prog.map]

theorem waitAndWrite_reads (byte : UInt8) (giveUp written : Host Nat) (left : Nat)
    (data : List UInt8) : ∃ next,
    (waitAndWrite byte giveUp written left).map (Result.sent data) = .read .consoleTx next := by
  cases left <;> exact ⟨_, rfl⟩

/-- The phase depends on the board only through the room it showed or left. -/
theorem Phase.of_board {s : Sys rxDepth txDepth} {pending : List UInt8}
    (phase : Phase polls s pending) (s' : Sys rxDepth txDepth) (session : s'.session = s.session)
    (answers : s'.answers = s.answers) (flight : s'.flight = s.flight)
    (shrinks : s'.board.tx.length ≤ s.board.tx.length) : Phase polls s' pending := by
  cases phase with
  | idle idle nothing => exact .idle (session.trans idle) nothing
  | waiting left byte rest running shown =>
    refine .waiting left byte rest (session.trans running) fun word member clear => ?_
    exact Nat.lt_of_le_of_lt shrinks (shown word (answers ▸ member) clear)
  | writing byte rest running landed room =>
    exact .writing byte rest (session.trans running) (flight.trans landed)
      (Nat.lt_of_le_of_lt shrinks room)
  | done rest running => exact .done rest (session.trans running)
  | quiet p running never nothing => exact .quiet p (session.trans running) never nothing

theorem Counted.calls {s : Sys rxDepth txDepth} {pending : List UInt8}
    (inv : Counted polls s pending) (current : ReadsCurrent s) (call : Call)
    (idle : s.session = none) :
    Counted polls { s with session := some (call.program polls) } pending where
  account := inv.account
  room := inv.room
  clean := inv.clean
  phase := by
    have fresh := current.fresh (by simp [idle])
    obtain rfl : pending = [] := by
      cases inv.phase <;> simp_all
    cases call with
    | drain => exact .quiet _ rfl (drainLoop_neverPushes _ _) rfl
    | send data => exact .of_sendLoop data fresh rfl
    | checkErrors clear => exact .quiet _ rfl (checkErrors_neverPushes clear) rfl

theorem Counted.answered {s : Sys rxDepth txDepth} {pending : List UInt8}
    (inv : Counted polls s pending) {reg : Reg} {next : Nat → Host Result}
    (reading : s.session = some (.read reg next)) :
    Counted polls { s with answers := s.answers ++ [s.board.readReg reg] } pending where
  account := inv.account
  room := inv.room
  clean := inv.clean
  phase := by
    cases inv.phase with
    | idle session nothing => exact .idle session nothing
    | waiting left byte rest session shown =>
      refine .waiting left byte rest session fun word member => ?_
      obtain ⟨rfl, -⟩ := waitAndWrite_reading (Option.some.inj (session.symm.trans reading))
      rcases List.mem_append.mp member with earlier | now
      · exact shown word earlier
      · rw [List.mem_singleton.mp now]
        exact readReg_showsRoom s.board
    | writing byte rest session landed room => exact .writing byte rest session landed room
    | done rest session => exact .done rest session
    | quiet p session never nothing => exact .quiet p session never nothing

theorem Counted.readReturns {s : Sys rxDepth txDepth} {pending : List UInt8}
    (inv : Counted polls s pending) (current : ReadsCurrent s) {reg : Reg}
    {next : Nat → Host Result} {word : Nat} (reading : s.session = some (.read reg next))
    (taken : word ∈ s.answers) :
    Counted polls { s with session := some (next word), answers := [] } pending where
  account := inv.account
  room := inv.room
  clean := inv.clean
  phase := by
    cases inv.phase with
    | idle session nothing => simp [session] at reading
    | waiting left byte rest session shown =>
      obtain ⟨-, continues⟩ := waitAndWrite_reading (Option.some.inj (session.symm.trans reading))
      rw [continues word]
      split
      · exact .writing byte rest rfl (current (List.ne_nil_of_mem taken)).1
          (shown word taken ‹_›)
      · cases left with
        | zero => exact .done (byte :: rest) rfl
        | succ fewer => exact .waiting fewer byte rest rfl (by simp)
    | writing byte rest session landed room => simp [session] at reading
    | done rest session => simp [session] at reading
    | quiet p session never nothing =>
      obtain rfl : p = .read reg next := Option.some.inj (session.symm.trans reading)
      exact .quiet _ rfl (never word) nothing

/-- Issuing a write adds its byte to the count and to the flight. -/
theorem Counted.writes {s : Sys rxDepth txDepth} {pending : List UInt8}
    (inv : Counted polls s pending) (current : ReadsCurrent s) {reg : Reg} {value : Nat}
    {next : Host Result} (writing : s.session = some (.write reg value next)) (pops : Nat) :
    ∃ pending', Counted polls { s with
      session := some next
      flight := s.flight ++ [(reg, value)]
      popsIssued := pops } pending' := by
  have fresh := current.fresh (by simp [writing])
  have account := inv.account
  have room := inv.room
  cases inv.phase with
  | idle session nothing => simp [session] at writing
  | waiting left byte rest session shown =>
    obtain ⟨_, reads⟩ := waitAndWrite_reads byte (.ret pending.length)
      (sendLoop polls rest (pending.length + 1)) left (pending ++ byte :: rest)
    rw [session, reads] at writing
    cases writing
  | writing byte rest session landed free =>
    obtain ⟨rfl, rfl, rfl⟩ : Reg.consoleTxData = reg ∧ byte.toNat = value ∧ _ = next := by
      simpa [session] using writing
    refine ⟨pending ++ [byte], ?_, ?_, inv.clean, .of_sendLoop rest fresh (by simp)⟩
    · simpa [landed, txInFlight_data, Sys.accepted, ← List.append_assoc] using account
    · simpa [landed, txInFlight_data] using Nat.succ_le_of_lt free
  | done rest session => simp [session] at writing
  | quiet p session never nothing =>
    obtain rfl : p = .write reg value next := Option.some.inj (session.symm.trans writing)
    refine ⟨pending, ?_, ?_, inv.clean, .quiet _ rfl never.2 nothing⟩
    · simpa [txInFlight_concat_other never.1, Sys.accepted] using account
    · simpa [txInFlight_concat_other never.1] using room

theorem Counted.phase_landing {s s' : Sys rxDepth txDepth} {pending : List UInt8}
    (inv : Counted polls s pending) (current : ReadsCurrent s) {write : Reg × Nat}
    {rest : List (Reg × Nat)} (first : s.flight = write :: rest) (session : s'.session = s.session)
    (answers : s'.answers = s.answers) : Phase polls s' pending := by
  have none := current.unanswered first
  cases inv.phase with
  | idle idle nothing => exact .idle (session.trans idle) nothing
  | waiting left byte rest running shown =>
    exact .waiting left byte rest (session.trans running) (by simp [answers, none])
  | writing byte rest running landed room => simp [landed] at first
  | done rest running => exact .done rest (session.trans running)
  | quiet p running never nothing => exact .quiet p (session.trans running) never nothing

theorem writeReg_tx (b : Board rxDepth txDepth) (value : Nat) {reg : Reg}
    (other : reg ≠ .consoleTxData) : (b.writeReg value reg).tx = b.tx := by
  cases reg <;> simp_all [Board.writeReg, Board.clear, Board.pop]
  split <;> rfl

theorem writeReg_writeWhenFull (b : Board rxDepth txDepth) (value : Nat) {reg : Reg}
    (other : reg ≠ .consoleTxData) (clean : b.sticky 1 = false) :
    (b.writeReg value reg).sticky 1 = false := by
  cases reg <;> simp_all [Board.writeReg, Board.clear, Board.pop]
  split <;> simp [Board.raise, clean]

/-- A write that lands where there is room is stored. -/
theorem stored_of_room {b : Board rxDepth txDepth} (room : b.tx.length < txDepth) (byte : UInt8) :
    b.stored byte = [byte] ∧ b.full = false := by
  have notFull : b.full = false := by
    simp only [Board.full, decide_eq_false_iff_not]
    omega
  simp [Board.stored, notFull]

theorem Counted.delivered {s : Sys rxDepth txDepth} {pending : List UInt8}
    (inv : Counted polls s pending) (current : ReadsCurrent s) {reg : Reg} {value : Nat}
    {rest : List (Reg × Nat)} (first : s.flight = (reg, value) :: rest) :
    Counted polls { s with
      board := s.board.writeReg value reg
      flight := rest
      entered := s.entered ++
        if reg = .consoleTxData then s.board.stored (UInt8.ofNat value) else [] } pending := by
  have account := inv.account
  have room := inv.room
  rw [first] at account room
  by_cases pushes : reg = .consoleTxData
  · subst reg
    rw [txInFlight_data] at account room
    rw [List.length_cons] at room
    have free : s.board.tx.length < txDepth := by omega
    obtain ⟨stored, notFull⟩ := stored_of_room free (UInt8.ofNat value)
    refine ⟨?_, ?_, ?_, inv.phase_landing current first rfl rfl⟩
    · simpa [stored, Sys.accepted] using account
    · simp only [Board.writeReg, Board.push, stored, List.length_append, List.length_singleton]
      omega
    · simpa [Board.writeReg, Board.push, notFull] using inv.clean
  · rw [txInFlight_other pushes] at account room
    refine ⟨?_, ?_, ?_, inv.phase_landing current first rfl rfl⟩
    · simpa [pushes, Sys.accepted] using account
    · rw [writeReg_tx _ _ pushes]
      exact room
    · exact writeReg_writeWhenFull _ _ pushes inv.clean

theorem Counted.lost {s : Sys rxDepth txDepth} {pending : List UInt8}
    (inv : Counted polls s pending) (current : ReadsCurrent s) {reg : Reg} {value : Nat}
    {rest : List (Reg × Nat)} (first : s.flight = (reg, value) :: rest)
    (other : reg ≠ .consoleTxData) : Counted polls { s with flight := rest } pending := by
  have account := inv.account
  have room := inv.room
  rw [first, txInFlight_other other] at account room
  exact ⟨account, room, inv.clean, inv.phase_landing current first rfl rfl⟩

theorem Counted.returns {s : Sys rxDepth txDepth} {pending : List UInt8}
    (inv : Counted polls s pending) {result : Result} (finished : s.session = some (.ret result)) :
    Counted polls { s with session := none, log := s.log ++ [result] } [] := by
  have given : result.accepted = pending := by
    cases inv.phase with
    | idle session nothing => simp [session] at finished
    | waiting left byte rest session shown =>
      obtain ⟨_, reads⟩ := waitAndWrite_reads byte (.ret pending.length)
        (sendLoop polls rest (pending.length + 1)) left (pending ++ byte :: rest)
      rw [session, reads] at finished
      cases finished
    | writing byte rest session landed room => simp [session] at finished
    | done rest session =>
      obtain rfl : Result.sent (pending ++ rest) pending.length = result := by
        simpa [session] using finished
      simp [Result.accepted]
    | quiet p session never nothing =>
      obtain rfl : p = .ret result := Option.some.inj (session.symm.trans finished)
      exact Eq.trans never nothing.symm
  refine ⟨?_, inv.room, inv.clean, .idle rfl rfl⟩
  simpa [Sys.accepted, given] using inv.account

/-- One move keeps the account, unless it loses a data write. -/
theorem counted_step {s s' : Sys rxDepth txDepth} {event : Event}
    (kept : event ≠ .lost .consoleTxData) (move : Move polls s event s')
    (current : ReadsCurrent s) (inv : ∃ pending, Counted polls s pending) :
    ∃ pending, Counted polls s' pending := by
  obtain ⟨pending, inv⟩ := inv
  cases move with
  | disabled => exact ⟨pending, inv⟩
  | arrives byte =>
    exact ⟨pending, inv.account, inv.room, inv.clean,
      inv.phase.of_board _ rfl rfl rfl (Nat.le_refl _)⟩
  | phyTakes =>
    have shrinks : s.board.phyTakes.tx.length ≤ s.board.tx.length := by
      simp [Board.phyTakes]
    exact ⟨pending, inv.account, (Nat.add_le_add_right shrinks _).trans inv.room, inv.clean,
      inv.phase.of_board _ rfl rfl rfl shrinks⟩
  | calls call idle => exact ⟨pending, inv.calls current call idle⟩
  | answered reg next reading landed => exact ⟨pending, inv.answered reading⟩
  | readReturns index reg next word reading taken =>
    exact ⟨pending, inv.readReturns current reading taken⟩
  | writes reg value next writing => exact inv.writes current writing _
  | delivered reg value rest first => exact ⟨pending, inv.delivered current first⟩
  | lost reg value rest first =>
    exact ⟨pending, inv.lost current first fun pushes => kept (by rw [pushes])⟩
  | returns result finished => exact ⟨[], inv.returns finished⟩

theorem start_counted : Counted polls (Sys.start : Sys rxDepth txDepth) [] :=
  ⟨rfl, Nat.zero_le _, rfl, .idle rfl rfl⟩

variable (rxDepth txDepth) in
theorem after_counted (polls : Nat) (events : List Event)
    (kept : Event.lost .consoleTxData ∉ events) :
    ∃ pending, Counted polls (after polls events : Sys rxDepth txDepth) pending :=
  after_invariant ⟨[], start_counted⟩
    (fun _ _ _ kept move current inv => counted_step kept move current inv) events
    fun _ member lost => kept (lost ▸ member)

end Remote8008.Guarantees.SendAccounting
