import Remote8008.Guarantees.ConnectLeaks
import Remote8008.System.CommandRuns

/-!
# The commands give back what they took

host/b8008net/cli.py:58-131 with `Board.close`, host/b8008net/board.py:150-158. Every act
can raise or be interrupted. The books of the lock, the servers and the clients are those
of `connect`; a command that ends leaves them empty, except that `close` has no handlers:
a client that refuses to close, or an interruption of the release itself, is the last
thing that happens.
-/

namespace Remote8008.Guarantees.CommandsRelease
open Lib.Interaction Source.Discovery Source.BoardConnect Source.Cli Source.Commands
open System.CommandRuns System.HostPrograms ConnectLeaks

/-- The books of a command, and its last act. -/
abbrev Books := Resources × Option (Op Act Answer)

def books : Monitor Act Answer Books := watched (fun _ _ => True) resources

theorem resources_blind : Blind resources := by
  intro g c word
  cases c <;> exact ⟨rfl, id⟩

def Released (s : Books) : Prop := ∃ attempts, Settled attempts s.1

/-- What holds when a command raises: all is released, or the last act kept it from that. -/
def Ended : Raised → Books → Prop
  | .exception e, s => Released s ∨ ∃ client, s.1.lock = some client ∧
      s.2 = some (.read (.call (.clientClose client)) (.raised (.exception e)))
  | .keyboardInterrupt, s => Released s ∨ Interrupted s.2
  | .killed, _ => True

theorem Released.ended {s : Books} (released : Released s) : ∀ e, Ended e s
  | .exception _ => .inl released
  | .keyboardInterrupt => .inl released
  | .killed => trivial

theorem ended_of_endsBy {e : Raised} {s : Books}
    (ends : endsBy (fun _ g => ∃ attempts, Settled attempts g) e s) : Ended e s :=
  match e with
  | .exception _ => .inl ends
  | .keyboardInterrupt => .inr ends
  | .killed => trivial

/-- The acts of a session are not in the books. -/
theorem unbooked (g : Resources) (a : Act) (inside : InSession a) :
    Harmless books (fun s => s.1 = g) (fun _ s => s.1 = g) a := by
  refine session_harmless (fun _ _ => trivial) (fun c reply read => ?_) a inside
  cases c <;> first | exact ⟨trivial, rfl⟩ | exact read.elim

/-! ## Board.close -/

theorem settled_of_unlocked {attempt : Nat} {g : Resources}
    (holds : Holds attempt (attempt + 1) ⟨none, none⟩ g) :
    Settled (attempt + 1) { g with lock := none } :=
  ⟨rfl, holds.running, fun server member => (holds.signalled server member).resolve_left (by simp),
    fun client member => (holds.closed client member).resolve_left (by simp), holds.earlier⟩

theorem unlock_spec {attempt : Nat} {g : Resources}
    (holds : Holds attempt (attempt + 1) ⟨none, none⟩ g) (last : Option (Op Act Answer)) :
    Spec books (fun _ s => Released s) Ended (interruptible (tell (.unlock attempt)))
      (g, last) := by
  have released : Spec resources (fun _ h => ∃ attempts, Settled attempts h)
      (fun _ h => ∃ attempts, Settled attempts h) (tell (.unlock attempt)) g :=
    tell_spec holds.lock ⟨_, settled_of_unlocked holds⟩
  exact (interruptible_spec resources_blind released last).mono (fun _ _ done => done)
    fun _ _ ends => ended_of_endsBy ends

/-- A board without its client still holds its lock and its server. -/
theorem holds_of_closed {board : Board} {g : Resources} (owns : Owns board g) :
    Holds board.lock (board.lock + 1) ⟨board.serverProc, none⟩
      { g with closed := board.client :: g.closed } := by
  obtain ⟨mine, -⟩ := owns.held.client board.client rfl
  refine ⟨owns.held.lock, owns.held.running, owns.held.server, owns.held.signalled, by simp, ?_, ?_⟩
  · intro client member
    rcases owns.held.closed client member with same | old
    · exact .inr (List.mem_cons.mpr (.inl (Option.some.inj same).symm))
    · exact .inr (List.mem_cons_of_mem _ old)
  · intro client member
    rcases List.mem_cons.mp member with rfl | old
    · exact mine ▸ Nat.lt_succ_self _
    · exact Nat.lt_succ_of_lt (owns.held.earlier client old)

theorem boardClose_spec {board : Board} {g : Resources} (owns : Owns board g)
    (last : Option (Op Act Answer)) :
    Spec books (fun _ s => Released s) Ended (boardClose board) (g, last) := by
  have closed := holds_of_closed owns
  refine Spec.bind (act_spec (fun _ => ⟨.value none, trivial⟩) (fun answer value => ?_) fun e => ?_)
  · obtain ⟨result, seen⟩ := reply_of_value value
    rw [books, watched_call seen]
    cases server : board.serverProc with
    | none =>
      rw [server] at closed
      exact unlock_spec closed _
    | some proc =>
      rw [server] at closed
      have reaped : Spec resources (fun _ h => Holds board.lock (board.lock + 1) ⟨none, none⟩ h)
          (fun _ _ => False) (terminateServer proc) _ := terminateServer_spec closed
      refine Spec.bind ((interruptible_spec resources_blind reaped _).mono ?_ ?_)
      · rintro - ⟨h, last⟩ held
        exact unlock_spec held last
      · intro e s ends
        exact match e with
          | .exception _ => ends.elim
          | .keyboardInterrupt => .inr ends
          | .killed => trivial
  · cases e with
    | exception e =>
      refine .inr ⟨board.client, ?_, rfl⟩
      exact (owns.held.lock).trans (congrArg some (owns.held.client board.client rfl).1.symm)
    | keyboardInterrupt => exact .inr ⟨_, rfl⟩
    | killed => trivial

/-! ## The commands -/

/-- A session with a board, closed at its end. -/
theorem closing_spec {board : Board} {g : Resources} (owns : Owns board g) {p : Cmd Unit}
    (inside : Within books (fun s => s.1 = g) (fun _ s => s.1 = g) p)
    (last : Option (Op Act Answer)) :
    Spec books (fun _ s => Released s) Ended (tryFinally p (boardClose board)) (g, last) := by
  refine tryFinally_spec ((inside (g, last) rfl).mono ?_ ?_)
  · rintro - ⟨h, last⟩ rfl
    exact boardClose_spec owns last
  · rintro e ⟨h, last⟩ rfl
    refine ⟨?_, fun _ => (boardClose_spec owns last).mono (fun _ _ done => done.ended e)
      fun _ _ ends => ends⟩
    rintro rfl
    trivial

theorem settled_none : Settled 0 .none :=
  ⟨rfl, rfl, by simp [Resources.none], by simp [Resources.none], by simp [Resources.none]⟩

/-- A connection made when nothing is held, and what the command does with it. -/
theorem connected_spec (startup : Nat) (host : Option String) (useCache : Bool)
    {use : Board → Cmd Nat} (last : Option (Op Act Answer))
    (rest : ∀ board g last, Owns board g → Spec books (fun _ s => Released s) Ended (use board)
      (g, last)) :
    Spec books (fun _ s => Released s) Ended
      (interruptible (connect (connectTo startup) host useCache) >>= use) (.none, last) := by
  have connects := connect_spec startup host useCache settled_none
  refine Spec.bind ((interruptible_spec resources_blind connects last).mono ?_ ?_)
  · rintro board ⟨g, last⟩ owns
    exact rest board g last owns
  · exact fun _ _ ends => ended_of_endsBy ends

theorem cmdStatus_spec (milliseconds : Answer → Answer → String) (startup : Nat) (args : Args) :
    Spec books (fun _ s => Released s) Ended (cmdStatus milliseconds startup args)
      (.none, none) := by
  refine connected_spec startup args.host (!args.noCache) none fun board g last owns => ?_
  have session := statusSession_within (unbooked g) milliseconds args.rtt board
  exact Spec.bind ((closing_spec owns session last).mono (fun _ _ done => Spec.pure done)
    fun _ _ ends => ends)

theorem loginHost_spec (args : Args) :
    Spec books (fun _ s => s.1 = .none) Ended (loginHost args) (.none, none) := by
  unfold loginHost
  split
  · exact Spec.pure rfl
  · have looks : Spec resources (fun _ h => h = .none) (fun _ h => ∃ attempts, Settled attempts h)
        (discover (!args.noCache)) .none :=
      (discover_ignored lookups_keep _).spec (fun _ => rfl) fun _ => ⟨0, settled_none⟩
    exact (interruptible_spec resources_blind looks none).mono (fun _ _ same => same)
      fun _ _ ends => ended_of_endsBy ends

theorem cmdLogin_spec (candidates : String → List String) (quoted : String → String)
    (startup polls rounds : Nat) (args : Args) :
    Spec books (fun _ s => Released s) Ended (cmdLogin candidates quoted startup polls rounds args)
      (.none, none) := by
  have idle : ∀ last, Released (.none, last) := fun _ => ⟨0, settled_none⟩
  refine Spec.bind ((loginHost_spec args).mono ?_ fun _ _ ends => ends)
  rintro host ⟨g, last⟩ rfl
  cases host with
  | none =>
    have asked : Harmless books (fun s => s.1 = .none) (fun _ s => s.1 = .none)
        (.call .localIpv4) := by
      refine .of_all (fun s answer _ => ⟨.value none, trivial⟩) ?_
      rintro s answer same
      exact (watched_call_same fun reply => rfl).trans same
    have message := discoveryFailureMessage_within asked candidates
    refine Spec.bind ((message _ rfl).mono ?_ ?_)
    · rintro text ⟨g, last⟩ rfl
      exact Spec.bind (act_spec (fun _ => trivial) (fun _ _ => Spec.pure (idle _))
        fun e => (idle _).ended e)
    · rintro e ⟨g, last⟩ rfl
      exact (idle last).ended e
  | some host =>
    refine connected_spec startup (some host) (!args.noCache) last fun board g last owns => ?_
    have session := loginSession_within (unbooked g) quoted polls rounds board
    exact Spec.bind ((closing_spec owns session last).mono (fun _ _ done => Spec.pure done)
      fun _ _ ends => ends)

/-- Whatever the system answers and wherever it interrupts: a command that returns has
released its lock, reaped its server and closed its client. One that raises has too,
unless the exception is the one its client's `close` raised, with the lock then still
held, or the interruption hit its very last act. -/
theorem commands_release_everything (environment : List (Op Act Answer) → Act → Answer)
    (setup : Setup) (args : Args) (command : Command) :
    let run := (main setup args command).run.perform environment []
    let final := books.after (.none, none) run.2
    match run.1 with
    | .ok _ => ∃ attempts, Settled attempts final.1
    | .error (.exception e) =>
      (∃ attempts, Settled attempts final.1) ∨ ∃ client, final.1.lock = some client ∧
        final.2 = some (.read (.call (.clientClose client)) (.raised (.exception e)))
    | .error .keyboardInterrupt =>
      (∃ attempts, Settled attempts final.1) ∨
        ∃ a, final.2 = some (.read a (.raised .keyboardInterrupt))
    | .error .killed => True := by
  intro run final
  have spec : Spec books (fun _ s => Released s) Ended (main setup args command) (.none, none) := by
    cases command with
    | status => exact cmdStatus_spec _ _ _
    | login => exact cmdLogin_spec _ _ _ _ _ _
    | console => exact cmdLogin_spec _ _ _ _ _ _
  obtain ⟨-, returns, raises⟩ := spec.perform environment
  cases result : run.1 with
  | ok code => exact returns code result
  | error e =>
    have ended := raises e result
    cases e with
    | exception e => exact ended
    | keyboardInterrupt => exact ended
    | killed => trivial

end Remote8008.Guarantees.CommandsRelease
