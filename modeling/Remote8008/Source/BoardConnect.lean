import Remote8008.Source.Discovery

/-!
# Connecting to the board

Source: host/b8008net/board.py:27-61,95-125,165-280. `Board.connect` makes at most two
attempts; everything an attempt takes (the lock, a server process, a client) is named by
the number of the attempt. `Popen.terminate`, `kill` and the final `wait`, and the
release of the lock, are taken to succeed, and what `wait` with a timeout raises is
`TimeoutExpired`. How long the server may take to come up is a number of polls.
-/

namespace Remote8008.Source.BoardConnect
open Lib.Interaction Discovery

/-- `acquire_lock`: a file that cannot be locked means that somebody else holds it. -/
def acquireLock (attempt : Nat) : Py Unit := do
  let _ ← call (.openLock attempt)
  let _ ← tryCatch (call (.flock attempt)) fun e =>
    if e.isOSError then throw .boardBusy else throw e

/-- `_port_listening`. -/
def portListening : Py Bool :=
  tryCatch
    (do
      let _ ← call .connectPort
      pure true)
    fun e => if e.isOSError then pure false else throw e

/-- `_terminate_server`. -/
def terminateServer (attempt : Nat) : Py Unit := do
  tell (.terminate attempt)
  let exited ← tryCatch (call (.waitTimeout attempt)) fun _ => pure none
  match exited with
  | some _ => pure ()
  | none => do
    tell (.kill attempt)
    tell (.wait attempt)

/-- `for i in range(256)` of `read_identifier`, with the iterations left; a zero word is
the end of the string. -/
def identifierLoop (attempt : Nat) : Nat → Nat → String → Py String
  | 0, _, chars => pure chars
  | left + 1, index, chars => do
    match ← call (.readWord attempt index) with
    | none => pure chars
    | some char => identifierLoop attempt left (index + 1) (chars ++ char)

/-- `Board.identifier`. -/
def identifier (attempt : Nat) : Py String := do
  match ← call (.identifierMem attempt) with
  | none => pure ""
  | some _ => identifierLoop attempt 256 0 ""

/-- The identifier check: a warning, never fatal. -/
def sanityCheck (expected : Option String) (actual : String) : Py Unit :=
  match expected with
  | none => pure ()
  | some expected =>
    if actual ≠ "" ∧ actual ≠ expected then do
      let _ ← call (.printWarning actual expected)
    else pure ()

structure Board where
  client : Nat
  host : String
  lock : Nat
  serverProc : Option Nat
  deriving DecidableEq, Repr

/-- The variables of `_connect_to` that its `except` clause looks at. -/
structure Locals where
  serverProc : Option Nat
  client : Option Nat
  deriving DecidableEq, Repr

/-- A step of the protected block: what it raises leaves with the variables as they are. -/
def Locals.within {α : Type} (locals : Locals) (p : Py α) : Raising Call Reply (Exn × Locals) α :=
  ExceptT.adapt (fun e => (e, locals)) p

/-- `while time.time() < deadline`, with the polls left. -/
def awaitServer : Nat → Py Unit
  | 0 => throw (.runtimeError "litex_server did not come up on localhost:1234")
  | polls + 1 => do
    if ← portListening then pure ()
    else
      tell .sleep
      awaitServer polls

/-- A server, if none is listening. -/
def startServer (polls attempt : Nat) : Raising Call Reply (Exn × Locals) Locals := do
  let fresh : Locals := ⟨none, none⟩
  if ← fresh.within portListening then pure fresh
  else
    let _ ← fresh.within (call (.spawn attempt))
    let started : Locals := ⟨some attempt, none⟩
    started.within (awaitServer polls)
    pure started

/-- The protected block of `_connect_to`. -/
def establish (polls attempt : Nat) (host : String) :
    Raising Call Reply (Exn × Locals) Board := do
  let locals ← startServer polls attempt
  let _ ← locals.within (call (.clientFactory attempt))
  let locals : Locals := { locals with client := some attempt }
  let _ ← locals.within (call (.clientOpen attempt))
  let board : Board := ⟨attempt, host, attempt, locals.serverProc⟩
  let expected ← locals.within (call .readCsrCsv)
  let actual ← locals.within (identifier attempt)
  locals.within (sanityCheck expected actual)
  pure board

/-- `if client is not None: try: client.close() except Exception: pass`. -/
def closeClient : Option Nat → Py Unit
  | none => pure ()
  | some client => tryCatch (do let _ ← call (.clientClose client)) fun _ => pure ()

/-- The `except` clause of `_connect_to`, up to its `raise`. -/
def cleanUp (attempt : Nat) (locals : Locals) : Py Unit := do
  closeClient locals.client
  match locals.serverProc with
  | none => pure ()
  | some proc => terminateServer proc
  tell (.unlock attempt)

def connectTo (polls attempt : Nat) (host : String) : Py Board := do
  acquireLock attempt
  match ← ExceptT.lift (establish polls attempt host).run with
  | .ok board => pure board
  | .error (e, locals) => do
    cleanUp attempt locals
    throw e

/-- The host to try first, and whether the cache named it. -/
def resolveHost (host : Option String) (useCache : Bool) : Py (String × Bool) :=
  match host with
  | some host => pure (host, false)
  | none => do
    match ← (if useCache then loadCache else pure none) with
    | some cached => pure (cached, true)
    | none => do
      match ← discover false with
      | some host => pure (host, false)
      | none => throw (.runtimeError
          "could not discover board (no cache, no DNS, no probe response)")

/-- A stale cache: drop it, look the board up again and try once more. -/
def retryFresh {α : Type} (connectTo : Nat → String → Py α) (e : Exn) : Py α := do
  clearCache
  match ← discover false with
  | none => throw e
  | some retried => connectTo 1 retried

/-- `Board.connect`, over the attempt it makes. -/
def connect {α : Type} (connectTo : Nat → String → Py α) (host : Option String)
    (useCache : Bool) : Py α := do
  let (host, fromCache) ← resolveHost host useCache
  tryCatch (connectTo 0 host) fun e =>
    if e = .boardBusy ∨ fromCache = false then throw e else retryFresh connectTo e

end Remote8008.Source.BoardConnect
