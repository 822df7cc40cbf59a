import Remote8008.System.HostPrograms

/-!
# `Board.connect` never leaks

host/b8008net/board.py:165-280. Every reply of the system is left open, so each call can
fail at each point. A monitor keeps the books of the lock, the server processes and the
clients; an attempt that raises leaves the books as empty as it found them, and the
second attempt starts from there.
-/

namespace Remote8008.Guarantees.ConnectLeaks
open Lib.Interaction Source.Discovery Source.BoardConnect System.HostRuns System.HostPrograms

/-! ## The books -/

/-- What this call of `connect` has taken and given back, by attempt. `listening` is the
first answer of the port in the attempt that holds the lock. -/
structure Resources where
  lock : Option Nat
  listening : Option Bool
  spawned : List Nat
  signalled : List Nat
  running : List Nat
  created : List Nat
  closed : List Nat
  deriving DecidableEq, Repr

def Resources.none : Resources := ⟨Option.none, Option.none, [], [], [], [], []⟩

/-- The lock is never asked for while this call holds it, and a server is waited for only
after it was told to stop. -/
def resources : Monitor Call Reply Resources where
  follow h
    | .read (.flock attempt) (.value _) => { h with lock := some attempt, listening := none }
    | .write (.unlock _) _ => { h with lock := none }
    | .read .connectPort (.value _) => { h with listening := h.listening.or (some true) }
    | .read .connectPort (.raised e) =>
      if e.isOSError then { h with listening := h.listening.or (some false) } else h
    | .read (.spawn attempt) (.value _) =>
      { h with spawned := attempt :: h.spawned, running := attempt :: h.running }
    | .write (.terminate attempt) _ => { h with signalled := attempt :: h.signalled }
    | .read (.waitTimeout attempt) (.value (some _)) =>
      { h with running := h.running.erase attempt }
    | .write (.wait attempt) _ => { h with running := h.running.erase attempt }
    | .read (.clientFactory attempt) (.value _) => { h with created := attempt :: h.created }
    | .read (.clientClose attempt) _ => { h with closed := attempt :: h.closed }
    | _ => h
  allows h
    | .read (.flock _) _ => h.lock = none
    | .write (.unlock attempt) _ => h.lock = some attempt
    | .read (.waitTimeout attempt) _ => attempt ∈ h.signalled
    | .write (.wait attempt) _ => attempt ∈ h.signalled
    | _ => True

/-! ## Calls that take nothing -/

theorem lookups_keep (c : Call) (lookup : Lookup c) : Keeps resources (call c) := by
  cases c <;> first
    | exact lookup.elim
    | exact call_keeps (fun _ _ => trivial) fun _ _ => rfl

/-! ## An attempt -/

/-- Nothing is held by the attempts below `next`: no lock, no server that has not been
told to stop and reaped, no client that has not been closed. -/
structure Settled (next : Nat) (h : Resources) : Prop where
  lock : h.lock = none
  running : h.running = []
  signalled : ∀ server ∈ h.spawned, server ∈ h.signalled
  closed : ∀ client ∈ h.created, client ∈ h.closed
  earlier : ∀ client ∈ h.closed, client < next

/-- What the variables of an attempt name is all that is held, and the clients closed so
far are of attempts below `next`. -/
structure Holds (attempt next : Nat) (locals : Locals) (h : Resources) : Prop where
  lock : h.lock = some attempt
  running : h.running = locals.serverProc.toList
  server : ∀ server, locals.serverProc = some server → server = attempt ∧ server ∈ h.spawned
  signalled : ∀ server ∈ h.spawned, locals.serverProc = some server ∨ server ∈ h.signalled
  client : ∀ client, locals.client = some client → client = attempt ∧ client ∈ h.created
  closed : ∀ client ∈ h.created, locals.client = some client ∨ client ∈ h.closed
  earlier : ∀ client ∈ h.closed, client < next

/-- What a board holds is all that is held: its lock, the server its own attempt spawned or
none if one was listening, and its client; all that other attempts took is given back. -/
structure Owns (board : Board) (h : Resources) : Prop where
  held : Holds board.lock board.lock ⟨board.serverProc, some board.client⟩ h
  listening : board.serverProc = none ↔ h.listening = some true

theorem acquireLock_spec {attempt : Nat} {h : Resources} (settled : Settled attempt h) :
    Spec resources (fun _ g => Holds attempt attempt ⟨none, none⟩ g ∧ g.listening = none)
      (fun _ g => g = h) (acquireLock attempt) h := by
  refine Spec.bind
    ((call_keeps (fun _ _ => trivial) fun _ _ => rfl).spec (fun _ => ?_) fun _ => rfl)
  refine Spec.bind (Spec.tryCatch (call_spec (fun _ => settled.lock) (fun _ => ?_) fun e => ?_))
  · refine ⟨⟨rfl, settled.running, by simp, fun server spawned => ?_, by simp,
      fun client created => ?_, settled.earlier⟩, rfl⟩
    · exact .inr (settled.signalled server spawned)
    · exact .inr (settled.closed client created)
  · split
    · exact Spec.throw rfl
    · exact Spec.throw rfl

theorem portListening_spec (h : Resources) :
    Spec resources (fun up g => g = { h with listening := h.listening.or (some up) })
      (fun _ g => g = h) portListening h := by
  refine Spec.tryCatch
    (Spec.bind (call_spec (fun _ => trivial) (fun _ => Spec.pure rfl) fun e => ?_))
  cases kind : e.isOSError with
  | true =>
    rw [if_pos rfl]
    exact Spec.pure (by simp [resources, kind])
  | false => exact Spec.throw (by simp [resources, kind])

/-- Once the port has been asked, asking again changes nothing. -/
theorem awaitServer_spec (polls : Nat) {h : Resources} (first : Bool)
    (asked : h.listening = some first) :
    Spec resources (fun _ g => g = h) (fun _ g => g = h) (awaitServer polls) h := by
  have same : ∀ up, { h with listening := h.listening.or (some up) } = h := by
    intro up
    rw [asked, Option.some_or, ← asked]
  induction polls with
  | zero => exact Spec.throw rfl
  | succ polls ih =>
    refine Spec.bind ((portListening_spec h).mono ?_ fun _ _ kept => kept)
    rintro up g rfl
    rw [same]
    cases up with
    | true => exact Spec.pure rfl
    | false => exact Spec.bind (tell_spec trivial ih)

theorem Holds.asked {attempt : Nat} {locals : Locals} {h : Resources}
    (holds : Holds attempt attempt locals h) (up : Option Bool) :
    Holds attempt attempt locals { h with listening := up } :=
  ⟨holds.lock, holds.running, holds.server, holds.signalled, holds.client, holds.closed,
    holds.earlier⟩

theorem Holds.spawned {attempt : Nat} {client : Option Nat} {h : Resources}
    (holds : Holds attempt attempt ⟨none, client⟩ h) :
    Holds attempt attempt ⟨some attempt, client⟩
      { h with spawned := attempt :: h.spawned, running := attempt :: h.running } where
  lock := holds.lock
  running := by simp [holds.running]
  server := by simp
  signalled := by
    intro server member
    rcases List.mem_cons.mp member with rfl | old
    · exact .inl rfl
    · exact .inr ((holds.signalled server old).resolve_left (by simp))
  client := holds.client
  closed := holds.closed
  earlier := holds.earlier

theorem Holds.created {attempt : Nat} {server : Option Nat} {h : Resources}
    (holds : Holds attempt attempt ⟨server, none⟩ h) :
    Holds attempt attempt ⟨server, some attempt⟩ { h with created := attempt :: h.created } where
  lock := holds.lock
  running := holds.running
  server := holds.server
  signalled := holds.signalled
  client := by simp
  closed := by
    intro client member
    rcases List.mem_cons.mp member with rfl | old
    · exact .inl rfl
    · exact .inr ((holds.closed client old).resolve_left (by simp))
  earlier := holds.earlier

theorem startServer_spec (polls : Nat) {attempt : Nat} {h : Resources}
    (holds : Holds attempt attempt ⟨none, none⟩ h) (unasked : h.listening = none) :
    Spec resources
      (fun locals g => Holds attempt attempt locals g ∧ locals.client = none ∧
        (locals.serverProc = none ↔ g.listening = some true))
      (fun raised g => Holds attempt attempt raised.2 g) (startServer polls attempt) h := by
  refine Spec.bind (Spec.adapt ((portListening_spec h).mono ?_ ?_))
  · rintro up g rfl
    rw [unasked, Option.none_or]
    cases up with
    | true => exact Spec.pure ⟨holds.asked (some true), rfl, by simp⟩
    | false =>
      have asked := holds.asked (some false)
      refine Spec.bind (Spec.adapt (call_spec (fun _ => trivial) (fun _ => ?_) fun _ => asked))
      refine Spec.bind (Spec.adapt ((awaitServer_spec polls false rfl).mono ?_ ?_))
      · rintro - g rfl
        exact Spec.pure ⟨asked.spawned, rfl, by simp [resources]⟩
      · rintro e g rfl
        exact asked.spawned
  · rintro e g rfl
    exact holds

theorem establish_spec (polls : Nat) {attempt : Nat} (host : String) {h : Resources}
    (holds : Holds attempt attempt ⟨none, none⟩ h) (unasked : h.listening = none) :
    Spec resources Owns (fun raised g => Holds attempt attempt raised.2 g)
      (establish polls attempt host) h := by
  refine Spec.bind ((startServer_spec polls holds unasked).mono ?_ fun _ _ held => held)
  rintro ⟨server, client⟩ g ⟨started, rfl, listening⟩
  refine Spec.bind (Spec.adapt (call_spec (fun _ => trivial) (fun _ => ?_) fun _ => started))
  -- from here on the client exists and nothing more is taken
  have created := started.created
  refine Spec.bind (Spec.adapt ((call_keeps (fun _ _ => trivial) fun _ _ => rfl).spec
    (fun _ => ?_) fun _ => created))
  refine Spec.bind (Spec.adapt ((call_keeps (fun _ _ => trivial) fun _ _ => rfl).spec
    (fun expected => ?_) fun _ => created))
  have identified : Keeps resources (identifier attempt) :=
    identifier_keeps (call_keeps (fun _ _ => trivial) fun _ _ => rfl) fun _ =>
      call_keeps (fun _ _ => trivial) fun _ _ => rfl
  refine Spec.bind (Spec.adapt (identified.spec (fun actual => ?_) fun _ => created))
  have checked : Keeps resources (sanityCheck expected actual) :=
    sanityCheck_keeps (fun _ _ => call_keeps (fun _ _ => trivial) fun _ _ => rfl) expected actual
  refine Spec.bind (Spec.adapt (checked.spec (fun _ => ?_) fun _ => created))
  exact Spec.pure ⟨created, listening⟩

theorem closeClient_spec {attempt : Nat} {server client : Option Nat} {h : Resources}
    (holds : Holds attempt attempt ⟨server, client⟩ h) {bad : Exn → Resources → Prop} :
    Spec resources (fun _ g => Holds attempt (attempt + 1) ⟨server, none⟩ g) bad
      (closeClient client) h := by
  cases client with
  | none =>
    exact Spec.pure ⟨holds.lock, holds.running, holds.server, holds.signalled, by simp,
      holds.closed, fun client member => Nat.lt_succ_of_lt (holds.earlier client member)⟩
  | some client =>
    obtain ⟨rfl, created⟩ := holds.client client rfl
    have closed : Holds client (client + 1) ⟨server, none⟩
        { h with closed := client :: h.closed } := by
      refine ⟨holds.lock, holds.running, holds.server, holds.signalled, by simp, ?_, ?_⟩
      · intro other member
        right
        rcases holds.closed other member with same | old
        · obtain rfl : client = other := Option.some.inj same
          exact List.mem_cons_self
        · exact List.mem_cons_of_mem _ old
      · intro other member
        rcases List.mem_cons.mp member with rfl | old
        · exact Nat.lt_succ_self _
        · exact Nat.lt_succ_of_lt (holds.earlier other old)
    refine Spec.tryCatch (Spec.bind (call_spec (fun _ => trivial) (fun _ => ?_) fun _ => ?_))
    · exact Spec.pure closed
    · exact Spec.pure closed

theorem terminateServer_spec {attempt next server : Nat} {h : Resources}
    (holds : Holds attempt next ⟨some server, none⟩ h) {bad : Exn → Resources → Prop} :
    Spec resources (fun _ g => Holds attempt next ⟨none, none⟩ g) bad
      (terminateServer server) h := by
  have reaped : Holds attempt next ⟨none, none⟩
      { h with signalled := server :: h.signalled, running := h.running.erase server } := by
    refine ⟨holds.lock, by simp [holds.running], by simp, ?_, by simp, holds.closed, holds.earlier⟩
    intro other member
    right
    rcases holds.signalled other member with same | old
    · obtain rfl : server = other := Option.some.inj same
      exact List.mem_cons_self
    · exact List.mem_cons_of_mem _ old
  refine Spec.bind (tell_spec trivial (Spec.bind (Spec.tryCatch (call_spec ?_ ?_ ?_))))
  · exact fun _ => List.mem_cons_self
  · intro exited
    cases exited with
    | some status => exact Spec.pure reaped
    | none => exact Spec.bind (tell_spec trivial (tell_spec List.mem_cons_self reaped))
  · intro e
    exact Spec.pure (Spec.bind (tell_spec trivial (tell_spec List.mem_cons_self reaped)))

theorem cleanUp_spec {attempt : Nat} {locals : Locals} {h : Resources}
    (holds : Holds attempt attempt locals h) {bad : Exn → Resources → Prop} :
    Spec resources (fun _ g => Settled (attempt + 1) g) bad (cleanUp attempt locals) h := by
  have unlock : ∀ g, Holds attempt (attempt + 1) ⟨none, none⟩ g →
      Spec resources (fun _ g => Settled (attempt + 1) g) bad (tell (.unlock attempt)) g := by
    intro g held
    refine tell_spec held.lock ⟨rfl, held.running, fun server member => ?_,
      fun client member => ?_, held.earlier⟩
    · exact (held.signalled server member).resolve_left (by simp)
    · exact (held.closed client member).resolve_left (by simp)
  obtain ⟨server, client⟩ := locals
  refine Spec.bind ((closeClient_spec holds).mono ?_ fun _ _ raised => raised)
  intro _ g closed
  cases server with
  | none => exact unlock g closed
  | some server =>
    exact Spec.bind ((terminateServer_spec closed).mono (fun _ g => unlock g)
      fun _ _ raised => raised)

theorem connectTo_spec (polls : Nat) {attempt : Nat} (host : String) {h : Resources}
    (settled : Settled attempt h) :
    Spec resources Owns (fun _ g => Settled (attempt + 1) g) (connectTo polls attempt host) h := by
  have later : Settled (attempt + 1) h :=
    ⟨settled.lock, settled.running, settled.signalled, settled.closed,
      fun client member => Nat.lt_succ_of_lt (settled.earlier client member)⟩
  refine Spec.bind ((acquireLock_spec settled).mono ?_ ?_)
  · rintro - g ⟨holds, unasked⟩
    refine Spec.bind (Spec.lift (Prog.wp_mono ?_ (establish_spec polls host holds unasked)))
    rintro (⟨e, locals⟩ | board) g reached
    · exact Spec.bind ((cleanUp_spec reached).mono (fun _ _ clean => Spec.throw clean)
        fun _ _ raised => raised)
    · exact Spec.pure reached
  · rintro e g rfl
    exact later

theorem connect_spec (polls : Nat) (host : Option String) (useCache : Bool) {h : Resources}
    (settled : Settled 0 h) :
    Spec resources Owns (fun _ g => ∃ attempts, Settled attempts g)
      (connect (connectTo polls) host useCache) h := by
  refine Spec.bind ((resolveHost_ignored lookups_keep host useCache).spec ?_ fun _ => ⟨0, settled⟩)
  rintro ⟨host, fromCache⟩
  refine Spec.tryCatch ((connectTo_spec polls host settled).mono (fun _ _ owns => owns) ?_)
  intro e g clean
  split
  · exact Spec.throw ⟨1, clean⟩
  · refine Spec.bind ((clearCache_ignored lookups_keep).spec (fun _ => ?_) fun _ => ⟨1, clean⟩)
    refine Spec.bind ((discover_ignored lookups_keep false).spec (fun retried => ?_)
      fun _ => ⟨1, clean⟩)
    cases retried with
    | none => exact Spec.throw ⟨1, clean⟩
    | some retried =>
      exact (connectTo_spec polls retried clean).mono (fun _ _ owns => owns)
        fun _ _ settled => ⟨2, settled⟩

/-- Whatever the system answers, and by whatever it remembers: `connect` asks for the lock
only while it does not hold it, a board it returns owns all that is still held, and when
it raises nothing is held. -/
theorem connect_never_leaks (environment : List (Op Call Reply) → Call → Reply) (polls : Nat)
    (host : Option String) (useCache : Bool) :
    let run := (connect (connectTo polls) host useCache).run.perform environment []
    let books := resources.after .none run.2
    (∀ before attempt reply later, run.2 = before ++ .read (.flock attempt) reply :: later →
      (resources.after .none before).lock = none) ∧
    (∀ board, run.1 = .ok board → Owns board books ∧ board.client ∉ books.closed) ∧
    ∀ e, run.1 = .error e → ∃ attempts, Settled attempts books := by
  intro run books
  have empty : Settled 0 .none :=
    ⟨rfl, rfl, by simp [Resources.none], by simp [Resources.none], by simp [Resources.none]⟩
  obtain ⟨allowed, returns, raises⟩ := (connect_spec polls host useCache empty).perform environment
  refine ⟨fun before attempt reply later split => ?_, fun board returned => ?_, raises⟩
  · exact allowed before _ later split
  · have owns := returns board returned
    refine ⟨owns, fun closed => ?_⟩
    have mine := (owns.held.client board.client rfl).1
    have earlier := owns.held.earlier board.client closed
    omega

/-- The cached host is dead: its server has to be killed and its client refuses to close. -/
def staleHost (ops : List (Op Call Reply)) : Call → Reply
  | .readCache => .value (some "10.0.0.9")
  | .connectPort =>
    if ops.contains (.read (.spawn 0) (.value none)) then .value none else .raised .osError
  | .readWord 0 _ => .raised (.other "ConnectionResetError")
  | .clientClose _ => .raised .osError
  | .waitTimeout _ => .raised (.other "TimeoutExpired")
  | .identifierMem _ => .value (some "")
  | .probeBroadcast => .value (some "10.0.0.7")
  | _ => .value none

example :
    let run := (connect (connectTo 3) none true).run.perform staleHost []
    run.1.toOption = some ⟨1, "10.0.0.7", 1, none⟩ ∧
    resources.after .none run.2 = ⟨some 1, some true, [0], [0], [], [1, 0], [0]⟩ := by
  decide +kernel

end Remote8008.Guarantees.ConnectLeaks
