import Remote8008.Source.Cli
import Remote8008.Source.ConsolePump

/-!
# The commands

Source: host/b8008net/cli.py:29-131, host/b8008net/board.py:150-163 and
host/b8008net/console.py:240-280. A command asks its system for `Act`s, and every answer
can be an exception. `KeyboardInterrupt` is no `Exception`: it passes the handlers of
`connect` and of discovery, so those programs run here with an interruption possible at
each of their calls. A process that is killed runs no handler at all; the same outcome
stands for the end of what is observed of a loop that has not ended.

How a float or a string literal is printed is a parameter.
-/

namespace Remote8008.Source.Commands
open Lib.Interaction Discovery BoardConnect Cli ConsolePump

inductive Raised where
  | exception (e : Exn)
  | keyboardInterrupt
  | killed
  deriving DecidableEq, Repr

inductive Answer where
  | value (result : Option String)
  | item (i : Item)
  | flag (set : Bool)
  | time (t : Nat)
  | raised (e : Raised)
  deriving DecidableEq, Repr

/-- `call` and `tell` are the calls of connect and discovery, `port` those of the console
client: a read, or a write of the item. -/
inductive Act where
  | call (c : Call)
  | tell (c : Call)
  | port (p : Port) (written : Option Item)
  | print (line : String)
  | eprint (line : String)
  | monotonic
  | tcgetattr
  | setraw
  | select
  | tcsetattr (settings : Answer)
  deriving DecidableEq, Repr

abbrev Cmd := Raising Act Answer Raised

variable {α : Type}

def act (a : Act) : Cmd Answer :=
  ExceptT.mk (.read a fun
    | .raised e => .ret (.error e)
    | answer => .ret (.ok answer))

/-- The answer as connect and discovery see it; an interruption they do not see. -/
def Answer.reply : Answer → Except Raised Reply
  | .raised (.exception e) => .ok (.raised e)
  | .raised .keyboardInterrupt => .error .keyboardInterrupt
  | .raised .killed => .error .killed
  | .value result => .ok (.value result)
  | .item _ | .flag _ | .time _ => .ok (.value none)

/-- What `_terminate_server` and the release of the lock are told cannot raise, but the
interpreter can be interrupted there too. -/
def interruptibleProg : Prog Call Reply (Except Exn α) → Prog Act Answer (Except Raised α)
  | .ret (.ok value) => .ret (.ok value)
  | .ret (.error e) => .ret (.error (.exception e))
  | .read c next => .read (.call c) fun answer =>
    match answer.reply with
    | .ok reply => interruptibleProg (next reply)
    | .error e => .ret (.error e)
  | .write c _ next => .read (.tell c) fun answer =>
    match answer.reply with
    | .ok _ => interruptibleProg next
    | .error e => .ret (.error e)

def interruptible (p : Py α) : Cmd α := ExceptT.mk (interruptibleProg p.run)

/-- The answer as the console client sees it. -/
def Answer.read : Answer → Except Raised Item
  | .raised e => .error e
  | .item i => .ok i
  | .value _ | .flag _ | .time _ => .ok (.word 0)

/-- The console client, any of whose operations can raise. -/
def onPortsProg : Client α → Prog Act Answer (Except Raised α)
  | .ret value => .ret (.ok value)
  | .read port next => .read (.port port none) fun answer =>
    match answer.read with
    | .ok item => onPortsProg (next item)
    | .error e => .ret (.error e)
  | .write port item next => .read (.port port (some item)) fun answer =>
    match answer.read with
    | .ok _ => onPortsProg next
    | .error e => .ret (.error e)

def onPorts (p : Client α) : Cmd α := ExceptT.mk (onPortsProg p)

/-- `try: … finally: …`. What the last part raises takes the place of the outcome. -/
def tryFinally (body : Cmd α) (last : Cmd Unit) : Cmd α := do
  match ← ExceptT.lift body.run with
  | .error .killed => throw .killed
  | .error e => do
    last
    throw e
  | .ok value => do
    last
    pure value

/-! ## console_loop -/

def Answer.isSet : Answer → Bool
  | .flag set => set
  | .value _ | .item _ | .time _ | .raised _ => false

/-- `while True`, with the iterations observed. -/
def pumpLoop (polls : Nat) : Nat → Cmd Unit
  | 0 => throw .killed
  | rounds + 1 => do
    let ready ← act .select
    if ← onPorts (consolePump polls ready.isSet) then pumpLoop polls rounds else pure ()

def consoleLoop (polls rounds : Nat) : Cmd Unit := do
  let oldSettings ← act .tcgetattr
  tryFinally
    (tryCatch
      (do
        let _ ← act .setraw
        let _ ← act (.eprint "-- b8008net console: Ctrl-] to exit --\r")
        pumpLoop polls rounds)
      fun e => if e = .keyboardInterrupt then pure () else throw e)
    (do let _ ← act (.tcsetattr oldSettings))

/-! ## Board.close -/

def boardClose (board : Board) : Cmd Unit := do
  let _ ← act (.call (.clientClose board.client))
  match board.serverProc with
  | none => pure ()
  | some proc => interruptible (terminateServer proc)
  interruptible (tell (.unlock board.lock))

/-! ## status -/

def rttDefaultReads : Nat := 50

/-- `for _ in range(reads)`. -/
def rttReads : Nat → Cmd Unit
  | 0 => pure ()
  | reads + 1 => do
    let _ ← act (.port (.csr .consoleTx) none)
    rttReads reads

/-- The two readings of the clock; the average is left to the formatting. -/
def measureRtt (reads : Nat) : Cmd (Answer × Answer) := do
  let start ← act .monotonic
  rttReads reads
  let stop ← act .monotonic
  pure (start, stop)

structure Args where
  host : Option String
  noCache : Bool
  rtt : Bool

/-- What `status` does with a board: `milliseconds` formats the average of the reads between
two readings of the clock. -/
def statusSession (milliseconds : Answer → Answer → String) (rtt : Bool) (board : Board) :
    Cmd Unit := do
  let name ← interruptible (identifier board.client)
  let _ ← act (.print ("identifier:  " ++ name))
  let _ ← act (.print ("board host:  " ++ board.host))
  if rtt then do
    let (start, stop) ← measureRtt rttDefaultReads
    let _ ← act (.print ("avg CSR read RTT: " ++ milliseconds start stop ++ " ms (" ++
      toString rttDefaultReads ++ " reads)"))
  else pure ()

def cmdStatus (milliseconds : Answer → Answer → String) (startup : Nat) (args : Args) :
    Cmd Nat := do
  let board ← interruptible (statusConnect (connectTo startup) args.host args.noCache)
  tryFinally (statusSession milliseconds args.rtt board) (boardClose board)
  pure 0

/-! ## login -/

/-- The line about the sweep: `candidates` are the addresses of the /24 of `ip`. -/
def sweptLine (candidates : String → List String) (ip : String) : String :=
  match (candidates ip).head?, (candidates ip).getLast? with
  | some first, some last =>
    "  subnet swept: " ++ first ++ "-" ++ last ++ " (" ++ toString (candidates ip).length ++
      " host(s), netmask 255.255.255.0, from this machine's address " ++ ip ++ ")"
  | _, _ => "  subnet swept: no other hosts on " ++ ip ++ "/255.255.255.0"

def discoveryFailureMessage (candidates : String → List String) : Cmd String := do
  let swept ← tryCatch
    (do
      match ← act (.call .localIpv4) with
      | .value (some ip) => pure (sweptLine candidates ip)
      | _ => pure "")
    fun e => match e with
      | .exception e =>
        if e.isOSError then pure ("  subnet swept: none -- could not determine this machine's " ++
          "own IPv4 address/route (no network connectivity?)")
        else throw (.exception e)
      | e => throw e
  pure ("\n".intercalate
    ["error: could not find the board on the network (no cached host, DNS lookup failed, and " ++
        "the probe sweep got no reply).",
      "  DNS names tried: " ++ ", ".intercalate dnsNames,
      swept,
      "  is the board powered on, plugged into this LAN, and has it had time to acquire a DHCP " ++
        "lease? Once you know its address, \x60--host <ip>\x60 (or \x60make login HOST=<ip>\x60) " ++
        "skips discovery entirely."])

/-- What `login` does with a board: `quoted` is `repr`. -/
def loginSession (quoted : String → String) (polls rounds : Nat) (board : Board) :
    Cmd Unit := do
  let name ← interruptible (identifier board.client)
  let _ ← act (.eprint
    ("-- connected: " ++ board.host ++ "  (identifier: " ++ quoted name ++ ") --"))
  consoleLoop polls rounds

/-- The explicit host, else what discovery finds. -/
def loginHost (args : Args) : Cmd (Option String) :=
  match args.host with
  | some host => pure (some host)
  | none => interruptible (discover (!args.noCache))

def cmdLogin (candidates : String → List String) (quoted : String → String)
    (startup polls rounds : Nat) (args : Args) : Cmd Nat := do
  match ← loginHost args with
  | none => do
    let message ← discoveryFailureMessage candidates
    let _ ← act (.eprint message)
    pure 1
  | some host => do
    let board ← interruptible (connect (connectTo startup) (some host) (!args.noCache))
    tryFinally (loginSession quoted polls rounds board) (boardClose board)
    pure 0

/-! ## main -/

inductive Command where
  | status | login | console
  deriving DecidableEq, Repr

/-- What the formatting and the clock decide: how results are printed, which addresses a
sweep covers, and how many polls and rounds are observed. -/
structure Setup where
  milliseconds : Answer → Answer → String
  candidates : String → List String
  quoted : String → String
  startup : Nat
  polls : Nat
  rounds : Nat

/-- `args.func(args)`; `console` is an alias of `login`. -/
def main (setup : Setup) (args : Args) : Command → Cmd Nat
  | .status => cmdStatus setup.milliseconds setup.startup args
  | .login | .console =>
    cmdLogin setup.candidates setup.quoted setup.startup setup.polls setup.rounds args

end Remote8008.Source.Commands
