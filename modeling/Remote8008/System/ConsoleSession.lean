import Remote8008.Source.Console
import Remote8008.Lib.Machine

/-!
# A console session across the network

One host session (`drain`, `send` and `check_errors` calls, one after the other)
against one board. The board is the pair of byte queues behind the console
registers; `Guarantees.ConsoleQueue` relates it to the clocked bridge.

The transport is the one of host/b8008net/eb_server.py:78-115. A read may be
performed by the board any number of times before it returns, and returns any of
the words taken since it was issued. A write is sent once, without
acknowledgement: it stays in flight until it is delivered or lost, in order, and
a read is answered only behind the writes issued before it. A repetition of an
earlier read that reaches the board late changes nothing there and is discarded by
the host, so it is not a step; nor is a read that exhausts its retry budget, which
raises and ends the session.
-/

namespace Remote8008.System.ConsoleSession
open Lib.Interaction Source.ConsoleBridge Source.Console

/-! ## The board behind the registers -/

structure Board (rxDepth txDepth : Nat) where
  rx : List UInt8
  tx : List UInt8
  sticky : Fin 3 → Bool
  fits : tx.length ≤ txDepth

variable {rxDepth txDepth : Nat}

-- The bits of `console_err` below are numerals of `Fin 3`.
local instance threeBits : NeZero 3 := ⟨by decide⟩

namespace Board

def powerOn : Board rxDepth txDepth := ⟨[], [], fun _ => false, Nat.zero_le _⟩

def consoleRx (b : Board rxDepth txDepth) : ConsoleRx :=
  match b.rx with
  | [] => ⟨0, false, 0⟩
  | head :: rest => ⟨head, true, min (rest.length + 1) rxDepth % 2 ^ 13⟩

def full (b : Board rxDepth txDepth) : Bool := decide (b.tx.length = txDepth)

def consoleTx (b : Board rxDepth txDepth) : ConsoleTx := ⟨b.tx.length % 2 ^ 9, b.full⟩

def arrive (b : Board rxDepth txDepth) (byte : UInt8) : Board rxDepth txDepth :=
  { b with rx := b.rx ++ [byte] }

def raise (b : Board rxDepth txDepth) (bit : Fin 3) : Board rxDepth txDepth :=
  { b with sticky := Function.update b.sticky bit true }

def pop (b : Board rxDepth txDepth) : Board rxDepth txDepth :=
  match b.rx with
  | [] => b.raise 2
  | _ :: rest => { b with rx := rest }

/-- What a write of `byte` adds to the transmit queue. -/
def stored (b : Board rxDepth txDepth) (byte : UInt8) : List UInt8 :=
  if b.full then [] else [byte]

theorem stored_fits (b : Board rxDepth txDepth) (byte : UInt8) :
    (b.tx ++ b.stored byte).length ≤ txDepth := by
  have room := b.fits
  by_cases h : b.tx.length = txDepth
  · simp [stored, full, h]
  · simp only [stored, full, h, decide_false, Bool.false_eq_true, if_false, List.length_append,
      List.length_singleton]
    omega

def push (b : Board rxDepth txDepth) (byte : UInt8) : Board rxDepth txDepth :=
  { rx := b.rx
    tx := b.tx ++ b.stored byte
    sticky := if b.full then Function.update b.sticky 1 true else b.sticky
    fits := b.stored_fits byte }

def phyTakes (b : Board rxDepth txDepth) : Board rxDepth txDepth :=
  { b with tx := b.tx.tail, fits := by rw [List.length_tail]; exact (Nat.sub_le _ _).trans b.fits }

def clear (b : Board rxDepth txDepth) (mask : Nat) : Board rxDepth txDepth :=
  { b with sticky := fun bit => if mask.testBit bit.val then false else b.sticky bit }

/-- The write-only registers read as zero; no host program reads them. -/
def readReg (b : Board rxDepth txDepth) : Reg → Nat
  | .consoleRx => b.consoleRx.word
  | .consoleTx => b.consoleTx.word
  | .consoleErr => errWord b.sticky
  | .consoleRxPop | .consoleTxData | .consoleErrClear => 0

def writeReg (b : Board rxDepth txDepth) (value : Nat) : Reg → Board rxDepth txDepth
  | .consoleRxPop => b.pop
  | .consoleTxData => b.push (UInt8.ofNat value)
  | .consoleErrClear => b.clear value
  | .consoleRx | .consoleTx | .consoleErr => b

end Board

/-! ## The session -/

inductive Call where
  | drain
  | send (data : List UInt8)
  | checkErrors (clear : Bool)
  deriving DecidableEq, Repr

inductive Result where
  | drained (bytes : List UInt8)
  | sent (data : List UInt8) (accepted : Nat)
  | errors (mask : Nat)
  deriving DecidableEq, Repr

/-- Bytes a finished call delivers to its caller. -/
def Result.received : Result → List UInt8
  | drained bytes => bytes
  | _ => []

/-- Bytes a finished call counts as accepted by the board. -/
def Result.accepted : Result → List UInt8
  | sent data count => data.take count
  | _ => []

/-- A finished call that tells its caller something went missing. -/
def Result.reports : Result → Bool
  | drained _ => false
  | sent data count => decide (count < data.length)
  | errors mask => decide (mask ≠ 0)

def Call.program (polls : Nat) : Call → Host Result
  | drain => Source.Console.drain.map .drained
  | send data => (Source.Console.send polls data).map (.sent data)
  | checkErrors clear => (Source.Console.checkErrors clear).map .errors

/-- `session` is what is left of the call in progress, `answers` the words taken
for its current read, `flight` the writes under way. The last four fields record
the history: bytes the core emitted, bytes that entered the transmit queue, pops
issued, and results of the finished calls. -/
structure Sys (rxDepth txDepth : Nat) where
  board : Board rxDepth txDepth
  session : Option (Host Result)
  answers : List Nat
  flight : List (Reg × Nat)
  emitted : List UInt8
  entered : List UInt8
  popsIssued : Nat
  log : List Result

namespace Sys

def start : Sys rxDepth txDepth := ⟨Board.powerOn, none, [], [], [], [], 0, []⟩

def received (s : Sys rxDepth txDepth) : List UInt8 := s.log.flatMap Result.received
def accepted (s : Sys rxDepth txDepth) : List UInt8 := s.log.flatMap Result.accepted
def reported (s : Sys rxDepth txDepth) : Bool := s.log.any Result.reports

/-- No call in progress and nothing in flight. -/
def Settled (s : Sys rxDepth txDepth) : Prop := s.session = none ∧ s.flight = []

end Sys

inductive Event where
  | arrives (byte : UInt8)
  | phyTakes
  | calls (call : Call)
  | answered
  | readReturns (index : Nat)
  | writes
  | delivered
  | lost (reg : Reg)
  | returns
  deriving DecidableEq, Repr

/-- An event that is not enabled leaves the system alone. -/
def step (polls : Nat) (s : Sys rxDepth txDepth) : Event → Sys rxDepth txDepth
  | .arrives byte => { s with board := s.board.arrive byte, emitted := s.emitted ++ [byte] }
  | .phyTakes => { s with board := s.board.phyTakes }
  | .calls call =>
    match s.session with
    | none => { s with session := some (call.program polls) }
    | some _ => s
  | .answered =>
    match s.session, s.flight with
    | some (.read reg _), [] => { s with answers := s.answers ++ [s.board.readReg reg] }
    | _, _ => s
  | .readReturns index =>
    match s.session, s.answers[index]? with
    | some (.read _ next), some word => { s with session := some (next word), answers := [] }
    | _, _ => s
  | .writes =>
    match s.session with
    | some (.write reg value next) =>
      { s with
        session := some next
        flight := s.flight ++ [(reg, value)]
        popsIssued := if reg = .consoleRxPop then s.popsIssued + 1 else s.popsIssued }
    | _ => s
  | .delivered =>
    match s.flight with
    | (reg, value) :: rest =>
      { s with
        board := s.board.writeReg value reg
        flight := rest
        entered := s.entered ++
          if reg = .consoleTxData then s.board.stored (UInt8.ofNat value) else [] }
    | [] => s
  | .lost reg =>
    match s.flight with
    | (sent, _) :: rest => if sent = reg then { s with flight := rest } else s
    | [] => s
  | .returns =>
    match s.session with
    | some (.ret result) => { s with session := none, log := s.log ++ [result] }
    | _ => s

/-- The moves of the system with their guards. -/
inductive Move (polls : Nat) (s : Sys rxDepth txDepth) : Event → Sys rxDepth txDepth → Prop where
  | disabled (event : Event) : Move polls s event s
  | arrives (byte : UInt8) : Move polls s (.arrives byte)
      { s with board := s.board.arrive byte, emitted := s.emitted ++ [byte] }
  | phyTakes : Move polls s .phyTakes { s with board := s.board.phyTakes }
  | calls (call : Call) (idle : s.session = none) : Move polls s (.calls call)
      { s with session := some (call.program polls) }
  | answered (reg : Reg) (next : Nat → Host Result) (reading : s.session = some (.read reg next))
      (landed : s.flight = []) : Move polls s .answered
      { s with answers := s.answers ++ [s.board.readReg reg] }
  | readReturns (index : Nat) (reg : Reg) (next : Nat → Host Result) (word : Nat)
      (reading : s.session = some (.read reg next)) (taken : word ∈ s.answers) :
      Move polls s (.readReturns index) { s with session := some (next word), answers := [] }
  | writes (reg : Reg) (value : Nat) (next : Host Result)
      (writing : s.session = some (.write reg value next)) : Move polls s .writes
      { s with
        session := some next
        flight := s.flight ++ [(reg, value)]
        popsIssued := if reg = .consoleRxPop then s.popsIssued + 1 else s.popsIssued }
  | delivered (reg : Reg) (value : Nat) (rest : List (Reg × Nat))
      (first : s.flight = (reg, value) :: rest) : Move polls s .delivered
      { s with
        board := s.board.writeReg value reg
        flight := rest
        entered := s.entered ++
          if reg = .consoleTxData then s.board.stored (UInt8.ofNat value) else [] }
  | lost (reg : Reg) (value : Nat) (rest : List (Reg × Nat))
      (first : s.flight = (reg, value) :: rest) : Move polls s (.lost reg) { s with flight := rest }
  | returns (result : Result) (finished : s.session = some (.ret result)) : Move polls s .returns
      { s with session := none, log := s.log ++ [result] }

theorem step_moves (polls : Nat) (s : Sys rxDepth txDepth) (event : Event) :
    Move polls s event (step polls s event) := by
  cases event with
  | arrives byte => exact .arrives byte
  | phyTakes => exact .phyTakes
  | calls call =>
    simp only [step]
    split
    · exact .calls call ‹_›
    · exact .disabled _
  | answered =>
    simp only [step]
    split
    · exact .answered _ _ ‹_› ‹_›
    · exact .disabled _
  | readReturns index =>
    simp only [step]
    split
    · exact .readReturns index _ _ _ ‹_› (List.mem_of_getElem? ‹_›)
    · exact .disabled _
  | writes =>
    simp only [step]
    split
    · exact .writes _ _ _ ‹_›
    · exact .disabled _
  | delivered =>
    simp only [step]
    split
    · exact .delivered _ _ _ ‹_›
    · exact .disabled _
  | lost reg =>
    simp only [step]
    split
    · split
      · subst reg
        exact .lost _ _ _ ‹_›
      · exact .disabled _
    · exact .disabled _
  | returns =>
    simp only [step]
    split
    · exact .returns _ ‹_›
    · exact .disabled _

/-- Words are outstanding only for the read in progress, and nothing is in flight then. -/
def ReadsCurrent (s : Sys rxDepth txDepth) : Prop :=
  s.answers ≠ [] → s.flight = [] ∧ ∃ reg next, s.session = some (.read reg next)

theorem ReadsCurrent.fresh {s : Sys rxDepth txDepth} (current : ReadsCurrent s)
    (elsewhere : ∀ reg next, s.session ≠ some (.read reg next)) : s.answers = [] := by
  by_contra some
  obtain ⟨-, reg, next, reading⟩ := current some
  exact elsewhere reg next reading

theorem ReadsCurrent.unanswered {s : Sys rxDepth txDepth} (current : ReadsCurrent s)
    {write : Reg × Nat} {rest : List (Reg × Nat)} (first : s.flight = write :: rest) :
    s.answers = [] := by
  by_contra some
  simp [(current some).1] at first

theorem ReadsCurrent.step {polls : Nat} {s s' : Sys rxDepth txDepth} {event : Event}
    (move : Move polls s event s') (current : ReadsCurrent s) : ReadsCurrent s' := by
  cases move with
  | disabled => exact current
  | arrives byte => exact current
  | phyTakes => exact current
  | calls call idle => exact fun some => absurd (current.fresh (by simp [idle])) some
  | answered reg next reading landed => exact fun _ => ⟨landed, reg, next, reading⟩
  | readReturns index reg next word reading taken => exact fun some => absurd rfl some
  | writes reg value next writing =>
    exact fun some => absurd (current.fresh (by simp [writing])) some
  | delivered reg value rest first => exact fun some => absurd (current.unanswered first) some
  | lost reg value rest first => exact fun some => absurd (current.unanswered first) some
  | returns result finished => exact fun some => absurd (current.fresh (by simp [finished])) some

/-- Invariant rule for sessions: `allowed` restricts the events. -/
theorem after_invariant {inv : Sys rxDepth txDepth → Prop} {polls : Nat} {allowed : Event → Prop}
    (first : inv Sys.start)
    (preserved : ∀ s s' event, allowed event → Move polls s event s' → ReadsCurrent s →
      inv s → inv s')
    (events : List Event) (fair : ∀ event ∈ events, allowed event) :
    inv (Lib.Machine.run (step polls) Sys.start events) := by
  have both := Lib.Machine.run_invariant (fun s => ReadsCurrent s ∧ inv s) allowed
    (fun s event ok h => ⟨h.1.step (step_moves polls s event),
      preserved s _ event ok (step_moves polls s event) h.1 h.2⟩)
    events fair Sys.start ⟨fun some => absurd rfl some, first⟩
  exact both.2

def after (polls : Nat) (events : List Event) : Sys rxDepth txDepth :=
  Lib.Machine.run (step polls) Sys.start events

end Remote8008.System.ConsoleSession
