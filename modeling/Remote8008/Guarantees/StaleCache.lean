import Remote8008.Source.Cli
import Remote8008.System.HostRuns

/-!
# `login` and `status` on a stale cache

host/b8008net/cli.py:32-37,111-146 with board.py:165-216 and discovery.py:208-243. Only
`Board.connect` knows that a host came from the cache. `login` resolves the host itself
and passes it on as an explicit one, so a cached host that does not answer is final there.
-/

namespace Remote8008.Guarantees.StaleCache
open Lib.Interaction Source.Discovery Source.BoardConnect Source.Cli System.HostRuns

/-! ## One network, one cache file -/

/-- What the network answers to a lookup, numbered, and what an attempt at a host comes to. -/
structure Lan where
  lookup : Nat → Call → Reply
  verdict : String → Reply

structure Scene where
  cache : Option String
  lookups : Nat
  tried : List String
  deriving DecidableEq, Repr

def Scene.answer (lan : Lan) (s : Scene) : Call → Reply × Scene
  | .readCache =>
    match s.cache with
    | none => (.raised .fileNotFound, s)
    | some text => (.value (some text), s)
  | .writeCache text => (.value none, { s with cache := some text })
  | .removeCache =>
    match s.cache with
    | none => (.raised .fileNotFound, s)
    | some _ => (.value none, { s with cache := none })
  | .probeBroadcast =>
    (lan.lookup s.lookups .probeBroadcast, { s with lookups := s.lookups + 1 })
  | .connectTo host => (lan.verdict host, { s with tried := s.tried ++ [host] })
  | other => (lan.lookup s.lookups other, s)

abbrev runs {α : Type} (lan : Lan) (p : Py α) (s : Scene) : Except Exn α × Scene :=
  Raising.runWith (Scene.answer lan) (fun s _ _ => s) p s

/-- The hosts tried in order, the host connected to, and the cache file left behind. -/
structure Outcome where
  tried : List String
  connected : Option String
  cache : Option String
  deriving DecidableEq, Repr

/-- The host the cache file names. -/
def cachedHost (cache : Option String) : Option String := truthy (cache.map strip)

/-! ## Runs of the pieces -/

section
variable {lan : Lan} {s s' : Scene}

theorem runs_loadCache : runs lan loadCache s = (.ok (cachedHost s.cache), s) := by
  cases cached : s.cache with
  | none => exact runWith_loadCache_absent (by simp [Scene.answer, cached])
  | some text => exact runWith_loadCache_present (by simp [Scene.answer, cached])

theorem runs_clearCache : runs lan clearCache s = (.ok (), { s with cache := none }) := by
  obtain ⟨cache, lookups, tried⟩ := s
  cases cache with
  | none => exact runWith_clearCache_absent rfl
  | some text => exact runWith_clearCache_present rfl

variable (lan s)

/-- What a lookup cannot do: try a host, or touch the cache without finding one. -/
def Discreet (run : Except Exn (Option String) × Scene) : Prop :=
  run.2.tried = s.tried ∧ ((∃ host, run.1 = .ok (some host)) ∨ run.2.cache = s.cache)

/-- The host the cache gives, if it is consulted. -/
def hit (useCache : Bool) (cache : Option String) : Option String :=
  if useCache then cachedHost cache else none

theorem runs_consult (useCache : Bool) :
    runs lan (if useCache then loadCache else pure none) s = (.ok (hit useCache s.cache), s) := by
  cases useCache with
  | true => exact runs_loadCache
  | false => rfl

variable {lan s}

def Scene.tries (s : Scene) (host : String) : Scene := { s with tried := s.tried ++ [host] }

end

/-! ## The two commands -/

section
variable {lan : Lan} {s s' : Scene} {noCache : Bool} {host : String}

end

end Remote8008.Guarantees.StaleCache
