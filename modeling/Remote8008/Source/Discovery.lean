import Remote8008.Lib.Raising

/-!
# Finding the board

Source: host/b8008net/discovery.py:56-103,208-243. The programs of the host talk to the
operating system through `Call`; a call that returns gives `None`, a false value or
nothing as `none` and anything else as `some`. Which packets a probe sends and which
replies it takes for the board is not modelled here: a probe is one call with its result.
-/

namespace Remote8008.Source.Discovery
open Lib.Interaction

/-- Exceptions as the host tells them apart; `FileNotFoundError` is an `OSError`. -/
inductive Exn where
  | fileNotFound | osError | boardBusy
  | runtimeError (message : String)
  | other (name : String)
  deriving DecidableEq, Repr

/-- What the host asks of its system. The calls of board.py carry the number of the
connection attempt whose lock, server process and client they are about. -/
inductive Call where
  | readCache | writeCache (text : String) | removeCache
  | probeBroadcast | gethostbyname (name : String) | localIpv4 | probeSweep (ip : String)
  | openLock (attempt : Nat) | flock (attempt : Nat) | unlock (attempt : Nat)
  | connectPort | sleep
  | spawn (attempt : Nat) | terminate (attempt : Nat) | waitTimeout (attempt : Nat)
  | kill (attempt : Nat) | wait (attempt : Nat)
  | clientFactory (attempt : Nat) | clientOpen (attempt : Nat) | clientClose (attempt : Nat)
  | identifierMem (attempt : Nat) | readWord (attempt index : Nat)
  | readCsrCsv | printWarning (actual expected : String)
  | connectTo (host : String)
  deriving DecidableEq, Repr

inductive Reply where
  | value (result : Option String)
  | raised (e : Exn)
  deriving DecidableEq, Repr

/-- A Python program. -/
abbrev Py := Raising Call Reply Exn

/-- A call that can raise. -/
def call (c : Call) : Py (Option String) :=
  ExceptT.mk (.read c fun
    | .value result => .ret (.ok result)
    | .raised e => .ret (.error e))

/-- A call that cannot. -/
def tell (c : Call) : Py Unit := ExceptT.mk (.write c (.value none) (.ret (.ok ())))

section
variable {γ : Type} {m : Monitor Call Reply γ} {g : γ}

theorem call_spec {c : Call} {good : Option String → γ → Prop} {bad : Exn → γ → Prop}
    (allowed : ∀ reply, m.allows g (.read c reply))
    (values : ∀ result, good result (m.follow g (.read c (.value result))))
    (raises : ∀ e, bad e (m.follow g (.read c (.raised e)))) : Spec m good bad (call c) g := by
  rintro (result | e)
  · exact ⟨allowed _, values result⟩
  · exact ⟨allowed _, raises e⟩

theorem call_keeps {c : Call} (allowed : ∀ g reply, m.allows g (.read c reply))
    (same : ∀ g reply, m.follow g (.read c reply) = g) : Keeps m (call c) :=
  fun g => call_spec (allowed g) (fun _ => same g _) fun _ => same g _

theorem tell_spec {c : Call} {good : Unit → γ → Prop} {bad : Exn → γ → Prop}
    (allowed : m.allows g (.write c (.value none)))
    (done : good () (m.follow g (.write c (.value none)))) : Spec m good bad (tell c) g :=
  ⟨allowed, done⟩

end

/-- A result that counts as true: the empty string does not. -/
def truthy (result : Option String) : Option String := result.filter (· ≠ "")

/-- `str.isspace` of one character. -/
def isSpace (c : Char) : Bool :=
  let n := c.toNat
  (0x09 ≤ n && n ≤ 0x0d) || (0x1c ≤ n && n ≤ 0x20) || n == 0x85 || n == 0xa0 || n == 0x1680 ||
    (0x2000 ≤ n && n ≤ 0x200a) || n == 0x2028 || n == 0x2029 || n == 0x202f || n == 0x205f ||
    n == 0x3000

def strip (text : String) : String :=
  String.ofList ((text.toList.dropWhile isSpace).reverse.dropWhile isSpace).reverse

def saveCache (host : String) : Py Unit := do
  let _ ← call (.writeCache (strip host ++ "\n"))

/-- `load_cache`. -/
def loadCache : Py (Option String) :=
  tryCatch
    (do
      let text ← call .readCache
      pure (truthy (text.map strip)))
    fun e => if e = .fileNotFound then pure none else throw e

/-- `clear_cache`. -/
def clearCache : Py Unit :=
  tryCatch (do let _ ← call .removeCache) fun e => if e = .fileNotFound then pure () else throw e

def dnsNames : List String := ["b8008", "b8008.lan"]

/-- `except OSError`. -/
def Exn.isOSError : Exn → Bool
  | fileNotFound | osError => true
  | boardBusy | runtimeError _ | other _ => false

def resolveDns : List String → Py (Option String)
  | [] => pure none
  | name :: names =>
    tryCatch (call (.gethostbyname name)) fun e =>
      if e.isOSError then resolveDns names else throw e

/-- The tail of `discover`: the subnet of this machine, swept. -/
def sweep : Py (Option String) := do
  let ip ← tryCatch (call .localIpv4) fun e => if e.isOSError then pure none else throw e
  match ip with
  | none => pure none
  | some ip => do
    let found ← call (.probeSweep ip)
    match truthy found with
    | some host => saveCache host
    | none => pure ()
    pure found

/-- Everything after the cache. -/
def lookUp : Py (Option String) := do
  match truthy (← call .probeBroadcast) with
  | some host => do
    saveCache host
    pure (some host)
  | none =>
    match truthy (← resolveDns dnsNames) with
    | some host => do
      saveCache host
      pure (some host)
    | none => sweep

def discover (useCache : Bool) : Py (Option String) := do
  match ← (if useCache then loadCache else pure none) with
  | some cached => pure (some cached)
  | none => lookUp

end Remote8008.Source.Discovery
