import Mathlib.Data.List.DropRight
import Remote8008.Guarantees.StaleCache
import Remote8008.System.HostPrograms

/-!
# The discovery cache over a call of `Board.connect`

host/b8008net/board.py:165-216 with discovery.py:56-80,208-243. The cache file works as a
file and everything else (the network, the lock, the server, the board) answers as it
likes, by all that happened before. The ledger of a run has the calls discovery made, the
attempts with their outcomes and the cache file they leave.
-/

namespace Remote8008.Guarantees.CacheCoherence
open Lib.Interaction Source.Discovery Source.BoardConnect System.HostRuns System.HostPrograms
open StaleCache (cachedHost hit)

/-! ## The ledger -/

structure Ledger where
  cache : Option String
  calls : List Call
  attempts : List (String × Reply)
  deriving DecidableEq, Repr

def Ledger.tries (g : Ledger) (host : String) (outcome : Reply) : Ledger :=
  { g with attempts := g.attempts ++ [(host, outcome)] }

/-- The calls of discovery.py: the cache file and the network. -/
def ofDiscovery : Call → Bool
  | .readCache | .writeCache _ | .removeCache
  | .probeBroadcast | .gethostbyname _ | .localIpv4 | .probeSweep _ => true
  | _ => false

/-- The cache file after a call. -/
def cacheAfter (cache : Option String) : Call → Option String
  | .writeCache text => some text
  | .removeCache => none
  | _ => cache

def ledger : Monitor Call Reply Ledger where
  follow g
    | .read c _ => if ofDiscovery c then
        { g with cache := cacheAfter g.cache c, calls := g.calls ++ [c] } else g
    | .write (.connectTo host) outcome => g.tries host outcome
    | .write _ _ => g
  allows _ _ := True

/-- The ledger of a log that started with this cache file. -/
def ledgerOf (cache : Option String) (log : List (Op Call Reply)) : Ledger :=
  ledger.after ⟨cache, [], []⟩ log

/-! ## The system -/

/-- Everything but the cache file. A sweep returns an address, which is not empty, or
nothing. -/
structure World where
  reply : List (Op Call Reply) → Call → Reply
  swept : ∀ log ip, reply log (.probeSweep ip) ≠ .value (some "")

def World.system (world : World) (cache : Option String) (log : List (Op Call Reply)) :
    Call → Reply
  | .readCache =>
    match (ledgerOf cache log).cache with
    | none => .raised .fileNotFound
    | some text => .value (some text)
  | .removeCache =>
    match (ledgerOf cache log).cache with
    | none => .raised .fileNotFound
    | some _ => .value none
  | .writeCache _ => .value none
  | c => world.reply log c

def World.answer (world : World) (cache : Option String) (log : List (Op Call Reply)) (c : Call) :
    Reply × List (Op Call Reply) :=
  (world.system cache log c, log ++ [.read c (world.system cache log c)])

def noted (log : List (Op Call Reply)) (c : Call) (value : Reply) : List (Op Call Reply) :=
  log ++ [.write c value]

abbrev runs {α : Type} (world : World) (cache : Option String) (p : Py α)
    (log : List (Op Call Reply)) : Except Exn α × List (Op Call Reply) :=
  Raising.runWith (world.answer cache) noted p log

def outcomeOf : Except Exn Board → Reply
  | .ok _ => .value none
  | .error e => .raised e

/-- `_connect_to`, with a note of the host and of the outcome when it is over. -/
def tryAt (polls attempt : Nat) (host : String) : Py Board :=
  ExceptT.mk ((connectTo polls attempt host).run.bind fun result =>
    .write (.connectTo host) (outcomeOf result) (.ret result))

/-- The outcomes that end a connection from the cache: success, and a board in use. -/
def Settles : Reply → Prop
  | .value _ => True
  | .raised e => e = .boardBusy

/-- The cache file that `save_cache` writes for a host, and what is read back from it. -/
def Names (cache : Option String) (host : String) : Prop :=
  cache = some (strip host ++ "\n") ∧ cachedHost cache = truthy (some (strip host))

/-- One lookup from a log with the ledger `before` decides about the rest of the run, and does
not read the cache. The host it finds gets one attempt, and is what the cache names in the
end. Without a host there is no attempt and the cache is as it was. -/
def LookupDecides (world : World) (cache : Option String) (attempt : String → Py Board)
    (run : Except Exn Board × List (Op Call Reply)) (before : Ledger) : Prop :=
  let final := ledgerOf cache run.2
  ∃ log found after more, ledgerOf cache log = before ∧
    runs world cache (discover false) log = (found, after) ∧
    final.calls = before.calls ++ .probeBroadcast :: more ∧
    (∀ c ∈ more, c ≠ .readCache ∧ c ≠ .probeBroadcast) ∧
    ((∃ host outcome, found = .ok (some host) ∧ run = runs world cache (attempt host) after ∧
        final.attempts = before.attempts ++ [(host, outcome)] ∧ Names final.cache host) ∨
      ((∀ host, found ≠ .ok (some host)) ∧ run.2 = after ∧
        final.attempts = before.attempts ∧ final.cache = before.cache))

/-! ## The cache file -/

theorem strip_line (host : String) : strip (strip host ++ "\n") = strip host := by
  have space : isSpace '\n' = true := by decide
  have strips : ∀ text, strip text =
      String.ofList ((text.toList.dropWhile isSpace).rdropWhile isSpace) := fun _ => rfl
  generalize trimmed : strip host = text
  have chars : text.toList = (host.toList.dropWhile isSpace).rdropWhile isSpace := by
    rw [← trimmed, strips, String.toList_ofList]
  have back : text.toList.rdropWhile isSpace = text.toList := by
    rw [chars, List.rdropWhile_idempotent]
  rw [strips, String.toList_append]
  change String.ofList (((text.toList ++ ['\n']).dropWhile _).rdropWhile _) = text
  cases front : text.toList with
  | nil =>
    have empty : text = "" := by simpa using front
    simp [space, empty]
  | cons first rest =>
    have visible : isSpace first = false := by
      obtain ⟨cut, split⟩ := List.rdropWhile_prefix isSpace (host.toList.dropWhile isSpace)
      have head := List.head?_dropWhile_not isSpace host.toList
      rw [← split, ← chars, front] at head
      simpa using head
    rw [front] at back
    rw [List.cons_append, List.dropWhile_cons_of_neg (by simp [visible]), ← List.cons_append,
      List.rdropWhile_concat_pos _ _ _ space, back, ← front, String.ofList_toList]

theorem names_saved (host : String) : Names (some (strip host ++ "\n")) host :=
  ⟨rfl, by rw [cachedHost, Option.map_some, strip_line]⟩

section
variable (world : World) (cache : Option String) (log : List (Op Call Reply))

@[simp] theorem ledgerOf_nil : ledgerOf cache [] = ⟨cache, [], []⟩ := rfl

theorem ledgerOf_answer (c : Call) :
    ledgerOf cache (world.answer cache log c).2 =
      if ofDiscovery c then
        { ledgerOf cache log with
          cache := cacheAfter (ledgerOf cache log).cache c
          calls := (ledgerOf cache log).calls ++ [c] }
      else ledgerOf cache log := by
  rw [ledgerOf, World.answer, Monitor.after_concat]
  rfl

theorem runs_loadCache :
    ∃ log', runs world cache loadCache log = (.ok (cachedHost (ledgerOf cache log).cache), log') ∧
      ledgerOf cache log' =
        { ledgerOf cache log with calls := (ledgerOf cache log).calls ++ [.readCache] } := by
  refine ⟨(world.answer cache log .readCache).2, ?_, ledgerOf_answer world cache log .readCache⟩
  cases file : (ledgerOf cache log).cache with
  | none => exact runWith_loadCache_absent (by simp [World.answer, World.system, file])
  | some text => exact runWith_loadCache_present (by simp [World.answer, World.system, file])

theorem runs_clearCache :
    ∃ log', runs world cache clearCache log = (.ok (), log') ∧
      ledgerOf cache log' = { ledgerOf cache log with
        cache := none, calls := (ledgerOf cache log).calls ++ [.removeCache] } := by
  refine ⟨(world.answer cache log .removeCache).2, ?_, ledgerOf_answer world cache log .removeCache⟩
  cases file : (ledgerOf cache log).cache with
  | none => exact runWith_clearCache_absent (by simp [World.answer, World.system, file])
  | some text =>
    have removed : world.answer cache log .removeCache =
        (.value none, (world.answer cache log .removeCache).2) := by
      simp [World.answer, World.system, file]
    exact runWith_clearCache_present removed

theorem runs_consult (useCache : Bool) :
    ∃ log', runs world cache (if useCache then loadCache else pure none) log =
        (.ok (hit useCache (ledgerOf cache log).cache), log') ∧
      ledgerOf cache log' = { ledgerOf cache log with
        calls := (ledgerOf cache log).calls ++ if useCache then [.readCache] else [] } := by
  cases useCache with
  | true => exact runs_loadCache world cache log
  | false => exact ⟨log, rfl, by simp⟩

end

/-! ## A lookup -/

section
variable {world : World} {cache : Option String} {log log' : List (Op Call Reply)}

theorem ledgerOf_asked (asked : Asked (world.answer cache) log log') :
    ∃ more, (∀ c ∈ more, Asks c) ∧ ledgerOf cache log' =
      { ledgerOf cache log with calls := (ledgerOf cache log).calls ++ more } := by
  induction asked with
  | start => exact ⟨[], by simp, by simp⟩
  | ask _ asks ih =>
    obtain ⟨more, asking, same⟩ := ih
    refine ⟨more ++ [_],
      List.forall_mem_append.mpr ⟨asking, List.forall_mem_singleton.mpr asks⟩, ?_⟩
    rw [ledgerOf_answer, same]
    cases asks <;> simp [ofDiscovery, cacheAfter]

variable (world cache log) in
/-- A lookup makes one broadcast and does not read the cache. The host it finds is what the
cache then names, and without one the cache stays as it was. -/
theorem runs_discover :
    ∃ found log' more, runs world cache (discover false) log = (found, log') ∧
      (∀ c ∈ more, c ≠ .readCache ∧ c ≠ .probeBroadcast) ∧
      (ledgerOf cache log').calls = (ledgerOf cache log).calls ++ .probeBroadcast :: more ∧
      (ledgerOf cache log').attempts = (ledgerOf cache log).attempts ∧
      ((∃ host, found = .ok (some host) ∧ Names (ledgerOf cache log').cache host) ∨
        (∀ host, found ≠ .ok (some host)) ∧
          (ledgerOf cache log').cache = (ledgerOf cache log).cache) := by
  have saves : ∀ log text, ∃ result,
      (world.answer cache log (.writeCache text)).1 = .value result := fun _ _ => ⟨none, rfl⟩
  have looked : LookedUp (world.answer cache) log (runs world cache (discover false) log) :=
    lookedUp saves log
  have other : ∀ {more : List Call}, (∀ c ∈ more, Asks c) →
      ∀ c ∈ more, c ≠ .readCache ∧ c ≠ .probeBroadcast := by
    intro more asking c member
    cases asking c member <;> simp
  have probed := ledgerOf_answer world cache log .probeBroadcast
  generalize runs world cache (discover false) log = run at looked
  cases looked with
  | found asked named =>
    rename_i log₁ host
    obtain ⟨more, asking, same⟩ := ledgerOf_asked asked
    have saved := ledgerOf_answer world cache log₁ (.writeCache (strip host ++ "\n"))
    rw [same, probed] at saved
    refine ⟨_, _, more ++ [.writeCache (strip host ++ "\n")], rfl, ?_, ?_, ?_, .inl ⟨host, rfl, ?_⟩⟩
    · exact List.forall_mem_append.mpr ⟨other asking, by simp⟩
    · simp [saved, ofDiscovery, cacheAfter]
    · simp [saved, ofDiscovery, cacheAfter]
    · simpa [saved, ofDiscovery, cacheAfter] using names_saved host
  | nothing asked =>
    obtain ⟨more, asking, same⟩ := ledgerOf_asked asked
    rw [probed] at same
    refine ⟨_, _, more, rfl, other asking, ?_, ?_, .inr ⟨by simp, ?_⟩⟩ <;>
      simp [same, ofDiscovery, cacheAfter]
  | raised asked =>
    obtain ⟨more, asking, same⟩ := ledgerOf_asked asked
    rw [probed] at same
    refine ⟨_, _, more, rfl, other asking, ?_, ?_, .inr ⟨by simp, ?_⟩⟩ <;>
      simp [same, ofDiscovery, cacheAfter]
  | blank asked swept => exact absurd swept (world.swept _ _)

end

/-! ## An attempt -/

/-- A call that is not discovery's leaves the ledger alone. -/
theorem call_keeps_ledger {c : Call} (other : ofDiscovery c = false) : Keeps ledger (call c) :=
  call_keeps (fun _ _ => trivial) fun _ _ => by simp [ledger, other]

theorem tell_keeps_ledger {c : Call} (other : ∀ host, c ≠ .connectTo host) :
    Keeps ledger (tell c) := by
  intro g
  refine tell_spec trivial ?_
  cases c <;> first | rfl | exact absurd rfl (other _)

theorem work_calls_keep (c : Call) (work : Work c) : Keeps ledger (call c) :=
  call_keeps_ledger (by cases c <;> first | exact work.elim | rfl)

theorem work_tells_keep (c : Call) (work : Work c) : Keeps ledger (tell c) := by
  refine tell_keeps_ledger ?_
  rintro host rfl
  exact work

theorem acquireLock_keeps (attempt : Nat) : Keeps ledger (acquireLock attempt) := by
  refine .bind (call_keeps_ledger rfl) fun _ => ?_
  refine .bind (.tryCatch (call_keeps_ledger rfl) fun e => ?_) fun _ => .pure _
  split
  · exact .throw _
  · exact .throw _

theorem cleanUp_keeps (attempt : Nat) (locals : Locals) :
    Keeps ledger (cleanUp attempt locals) := by
  refine .bind (closeClient_ignored work_calls_keep locals.client) fun _ => ?_
  dsimp only
  split
  · exact tell_keeps_ledger (by simp)
  · exact .bind (terminateServer_ignored work_calls_keep work_tells_keep _) fun _ =>
      tell_keeps_ledger (by simp)

theorem connectTo_keeps (polls attempt : Nat) (host : String) :
    Keeps ledger (connectTo polls attempt host) := by
  refine .bind (acquireLock_keeps attempt) fun _ => ?_
  refine .bind (establish_ignored work_calls_keep work_tells_keep polls attempt host).lift
    fun result => ?_
  split
  · exact .pure _
  · exact .bind (cleanUp_keeps attempt _) fun _ => .throw _

section
variable (world : World) (cache : Option String) (log : List (Op Call Reply))

/-- An attempt enters its host and its outcome and leaves the rest of the ledger alone. -/
theorem runs_tryAt (polls attempt : Nat) (host : String) :
    ∃ result log', runs world cache (tryAt polls attempt host) log = (result, log') ∧
      ledgerOf cache log' = (ledgerOf cache log).tries host (outcomeOf result) := by
  have run : runs world cache (tryAt polls attempt host) log =
      let attempted := (connectTo polls attempt host).run.perform (world.system cache) log
      (attempted.1, noted attempted.2 (.connectTo host) (outcomeOf attempted.1)) :=
    Prog.runWith_bind ..
  obtain ⟨more, reached, -, kept⟩ := Prog.wp_perform (world.system cache) log
    (connectTo_keeps polls attempt host (ledgerOf cache log))
  have same : ledger.after (ledgerOf cache log) more = ledgerOf cache log := by
    split at kept
    · exact kept
    · exact kept
  refine ⟨_, _, run, ?_⟩
  rw [reached, ledgerOf, noted, Monitor.after_concat, Monitor.after, List.foldl_append]
  exact congrArg (ledger.follow · _) same

theorem settles_outcomeOf {result : Except Exn Board} :
    Settles (outcomeOf result) ↔ ∀ e, result = .error e → e = .boardBusy := by
  cases result with
  | ok board => simp [Settles, outcomeOf]
  | error e => simp [Settles, outcomeOf]

end

/-! ## The connection -/

/-- What a program does with the result of a lookup is enough to know the rest of its run. -/
theorem lookup_decides (world : World) (cache : Option String) (log : List (Op Call Reply))
    (polls attempt : Nat) {run : Except Exn Board × List (Op Call Reply)}
    (goes : ∀ host after, runs world cache lookUp log = (.ok (some host), after) →
      run = runs world cache (tryAt polls attempt host) after)
    (ends : ∀ found after, runs world cache lookUp log = (found, after) →
      (∀ host, found ≠ .ok (some host)) → ∃ e, run = (.error e, after)) :
    LookupDecides world cache (tryAt polls attempt) run (ledgerOf cache log) := by
  obtain ⟨found, after, more, looked, quiet, calls, attempts, result⟩ :=
    runs_discover world cache log
  refine ⟨log, found, after, more, rfl, looked, ?_⟩
  rcases result with ⟨host, rfl, named⟩ | ⟨lost, kept⟩
  · have again := goes host after looked
    obtain ⟨board, log', tried, entered⟩ := runs_tryAt world cache after polls attempt host
    have closing : ledgerOf cache run.2 = (ledgerOf cache after).tries host (outcomeOf board) := by
      rw [again, tried]
      exact entered
    rw [closing]
    refine ⟨calls, quiet, .inl ⟨host, outcomeOf board, rfl, again, ?_, named⟩⟩
    exact congrArg (· ++ [(host, outcomeOf board)]) attempts
  · obtain ⟨e, ended⟩ := ends found after looked lost
    have closing : ledgerOf cache run.2 = ledgerOf cache after := by rw [ended]
    rw [closing]
    exact ⟨calls, quiet, .inr ⟨lost, by rw [ended], attempts, kept⟩⟩

/-- `Board.connect` for every cache file, every answer of the network and every course of the
attempts. An explicit host is tried once and discovery is left alone. A host from the cache
whose attempt settles the matter leaves the cache as it was; else the cache is dropped and
one lookup decides about a second attempt. Without a host from the cache one lookup decides
about the first. -/
theorem connect_keeps_cache_coherent (world : World) (polls : Nat) (cache host : Option String)
    (useCache : Bool) :
    let run := runs world cache (connect (tryAt polls) host useCache) []
    let final := ledgerOf cache run.2
    (∀ given, host = some given → ∃ outcome, final = ⟨cache, [], [(given, outcome)]⟩) ∧
    (∀ cached, host = none → hit useCache cache = some cached → ∃ outcome,
      (Settles outcome → final = ⟨cache, [.readCache], [(cached, outcome)]⟩) ∧
      (¬ Settles outcome → LookupDecides world cache (tryAt polls 1) run
        ⟨none, [.readCache, .removeCache], [(cached, outcome)]⟩)) ∧
    (host = none → hit useCache cache = none → LookupDecides world cache (tryAt polls 0) run
      ⟨cache, if useCache then [.readCache] else [], []⟩) := by
  intro run final
  refine ⟨?_, ?_, ?_⟩
  · rintro given rfl
    obtain ⟨board, log, tried, entered⟩ := runs_tryAt world cache [] polls 0 given
    have reached : run = (board, log) := (runWith_connect_once rfl).trans tried
    refine ⟨outcomeOf board, ?_⟩
    change ledgerOf cache run.2 = _
    rw [reached]
    exact entered
  · rintro cached rfl named
    obtain ⟨log, consulted, opening⟩ := runs_consult world cache [] useCache
    rw [ledgerOf_nil, named] at consulted
    have resolved := runWith_resolveHost_hit consulted
    have reading : useCache = true := by
      cases useCache with
      | true => rfl
      | false => simp [hit] at named
    obtain ⟨board, log₁, tried, entered⟩ := runs_tryAt world cache log polls 0 cached
    rw [opening, reading] at entered
    have first : ledgerOf cache log₁ = ⟨cache, [.readCache], [(cached, outcomeOf board)]⟩ := entered
    refine ⟨outcomeOf board, fun settled => ?_, fun stale => ?_⟩
    · have reached : run = (board, log₁) :=
        runWith_connect_settled resolved tried (settles_outcomeOf.mp settled)
      change ledgerOf cache run.2 = _
      rw [reached, first]
    · obtain ⟨e, rfl, free⟩ : ∃ e, board = .error e ∧ e ≠ .boardBusy := by
        simpa [settles_outcomeOf] using stale
      have again : run = runs world cache (retryFresh (tryAt polls) e) log₁ :=
        runWith_connect_stale resolved tried free
      obtain ⟨log₂, cleared, dropped⟩ := runs_clearCache world cache log₁
      rw [first] at dropped
      have emptied : ledgerOf cache log₂ =
          ⟨none, [.readCache, .removeCache], [(cached, outcomeOf (.error e))]⟩ := dropped
      rw [again, ← emptied]
      exact lookup_decides world cache log₂ polls 1
        (fun _ _ looked => runWith_retryFresh_found cleared e looked)
        (fun _ _ looked lost => runWith_retryFresh_lost cleared e looked lost)
  · rintro rfl missed
    obtain ⟨log, consulted, opening⟩ := runs_consult world cache [] useCache
    rw [ledgerOf_nil, missed] at consulted
    have opened : ledgerOf cache log = ⟨cache, if useCache then [.readCache] else [], []⟩ := opening
    rw [← opened]
    refine lookup_decides world cache log polls 0 (fun _ _ looked => ?_) fun _ _ looked lost => ?_
    · exact runWith_connect_once (runWith_resolveHost_found consulted looked)
    · obtain ⟨e, unresolved⟩ := runWith_resolveHost_lost consulted looked lost
      exact ⟨e, Raising.runWith_bind_error unresolved⟩

/-- A board that has moved, seen from a host that cannot open its lock file. -/
def noLockFile : World where
  reply _
    | .probeBroadcast => .value (some "10.0.0.7")
    | .openLock _ => .raised .osError
    | _ => .value none
  swept _ _ := by simp

example : ledgerOf (some "10.0.0.9\n")
    (runs noLockFile (some "10.0.0.9\n") (connect (tryAt 1) none true) []).2 =
      ⟨some "10.0.0.7\n",
        [.readCache, .removeCache, .probeBroadcast, .writeCache "10.0.0.7\n"],
        [("10.0.0.9", .raised .osError), ("10.0.0.7", .raised .osError)]⟩ := by
  decide +kernel

end Remote8008.Guarantees.CacheCoherence
