import Remote8008.System.HostRuns

/-!
# The host programs under a monitor that ignores their calls

The programs of discovery.py and board.py, by the calls they are made of: the lookups, and
the work on a server and its client, which is everything an attempt does between taking
the lock and releasing it.
-/

namespace Remote8008.System.HostPrograms
open Lib.Interaction Source.Discovery Source.BoardConnect HostRuns

variable {γ : Type} {m : Monitor Call Reply γ}

/-! ## Lookups -/

/-- The calls of discovery.py. -/
def Lookup : Call → Prop
  | .readCache | .writeCache _ | .removeCache => True
  | .probeBroadcast | .gethostbyname _ | .localIpv4 | .probeSweep _ => True
  | _ => False

section
variable (ignores : ∀ c, Lookup c → Keeps m (call c))
include ignores

theorem loadCache_ignored : Keeps m loadCache := by
  refine .tryCatch (.bind (ignores _ trivial) fun _ => .pure _) fun e => ?_
  split
  · exact .pure _
  · exact .throw _

theorem clearCache_ignored : Keeps m clearCache := by
  refine .tryCatch (.bind (ignores _ trivial) fun _ => .pure _) fun e => ?_
  split
  · exact .pure _
  · exact .throw _

theorem saveCache_ignored (host : String) : Keeps m (saveCache host) :=
  .bind (ignores _ trivial) fun _ => .pure _

theorem resolveDns_ignored (names : List String) : Keeps m (resolveDns names) := by
  induction names with
  | nil => exact .pure _
  | cons name names ih =>
    refine .tryCatch (ignores _ trivial) fun e => ?_
    split
    · exact ih
    · exact .throw _

theorem sweep_ignored : Keeps m sweep := by
  refine .bind (.tryCatch (ignores _ trivial) fun e => ?_) fun ip => ?_
  · split
    · exact .pure _
    · exact .throw _
  · cases ip with
    | none => exact .pure _
    | some ip =>
      refine .bind (ignores _ trivial) fun found => ?_
      dsimp only
      split
      · exact .bind (saveCache_ignored ignores _) fun _ => .pure _
      · exact .pure _

theorem lookUp_ignored : Keeps m lookUp := by
  refine .bind (ignores _ trivial) fun found => ?_
  split
  · exact .bind (saveCache_ignored ignores _) fun _ => .pure _
  · refine .bind (resolveDns_ignored ignores _) fun resolved => ?_
    split
    · exact .bind (saveCache_ignored ignores _) fun _ => .pure _
    · exact sweep_ignored ignores

theorem discover_ignored (useCache : Bool) : Keeps m (discover useCache) := by
  refine .bind ?_ fun cached => ?_
  · split
    · exact loadCache_ignored ignores
    · exact .pure _
  · cases cached with
    | none => exact lookUp_ignored ignores
    | some host => exact .pure _

theorem resolveHost_ignored (host : Option String) (useCache : Bool) :
    Keeps m (resolveHost host useCache) := by
  cases host with
  | some host => exact .pure _
  | none =>
    refine .bind ?_ fun cached => ?_
    · split
      · exact loadCache_ignored ignores
      · exact .pure _
    · cases cached with
      | some host => exact .pure _
      | none =>
        refine .bind (discover_ignored ignores false) fun found => ?_
        cases found with
        | some host => exact .pure _
        | none => exact .throw _

end

/-! ## The work on a server and its client -/

/-- The calls of board.py that are not about the lock. -/
def Work : Call → Prop
  | .connectPort | .sleep | .spawn _ | .terminate _ | .waitTimeout _ | .kill _ | .wait _ => True
  | .clientFactory _ | .clientOpen _ | .clientClose _ => True
  | .identifierMem _ | .readWord _ _ | .readCsrCsv | .printWarning _ _ => True
  | _ => False

section
variable (calls : ∀ c, Work c → Keeps m (call c))
include calls

theorem portListening_ignored : Keeps m portListening := by
  refine .tryCatch (.bind (calls _ trivial) fun _ => .pure _) fun e => ?_
  split
  · exact .pure _
  · exact .throw _

theorem closeClient_ignored (client : Option Nat) : Keeps m (closeClient client) := by
  cases client with
  | none => exact .pure _
  | some client => exact .tryCatch (.bind (calls _ trivial) fun _ => .pure _) fun _ => .pure _

variable (tells : ∀ c, Work c → Keeps m (tell c))
include tells

theorem awaitServer_ignored (polls : Nat) : Keeps m (awaitServer polls) := by
  induction polls with
  | zero => exact .throw _
  | succ polls ih =>
    refine .bind (portListening_ignored calls) fun listening => ?_
    split
    · exact .pure _
    · exact .bind (tells _ trivial) fun _ => ih

theorem startServer_ignored (polls attempt : Nat) : Keeps m (startServer polls attempt) := by
  refine .bind (.adapt (portListening_ignored calls)) fun listening => ?_
  split
  · exact .pure _
  · refine .bind (.adapt (calls _ trivial)) fun _ => ?_
    exact .bind (.adapt (awaitServer_ignored calls tells polls)) fun _ => .pure _

theorem establish_ignored (polls attempt : Nat) (host : String) :
    Keeps m (establish polls attempt host) := by
  refine .bind (startServer_ignored calls tells polls attempt) fun locals => ?_
  refine .bind (.adapt (calls _ trivial)) fun _ => .bind (.adapt (calls _ trivial)) fun _ => ?_
  refine .bind (.adapt (calls _ trivial)) fun expected => ?_
  refine .bind (.adapt (identifier_keeps (calls _ trivial) fun _ => calls _ trivial))
    fun actual => ?_
  exact .bind (.adapt (sanityCheck_keeps (fun _ _ => calls _ trivial) expected actual))
    fun _ => .pure _

theorem terminateServer_ignored (attempt : Nat) : Keeps m (terminateServer attempt) := by
  refine .bind (tells _ trivial) fun _ => ?_
  refine .bind (.tryCatch (calls _ trivial) fun _ => .pure _) fun exited => ?_
  split
  · exact .pure _
  · exact .bind (tells _ trivial) fun _ => tells _ trivial

end

end Remote8008.System.HostPrograms
