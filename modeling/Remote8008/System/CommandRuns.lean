import Remote8008.Source.Commands
import Remote8008.System.HostRuns

/-!
# Rules for the commands

One rule for each way host/b8008net/cli.py and host/b8008net/console.py build a program:
a single act, `finally`, the console client with its operations raising, and the programs
of `connect` and discovery with an interruption possible at each call. A monitor of those
programs carries over to the command; what is known after an interruption is which act it
hit.
-/

namespace Remote8008.System.CommandRuns
open Lib.Interaction Source.Discovery Source.BoardConnect Source.ConsolePump Source.Commands

variable {γ δ α : Type} {M : Monitor Act Answer δ} {d : δ}

theorem act_spec {a : Act} {good : Answer → δ → Prop} {bad : Raised → δ → Prop}
    (allowed : ∀ answer, M.allows d (.read a answer))
    (values : ∀ answer, (∀ e, answer ≠ .raised e) → good answer (M.follow d (.read a answer)))
    (raises : ∀ e, bad e (M.follow d (.read a (.raised e)))) : Spec M good bad (act a) d := by
  intro answer
  refine ⟨allowed answer, ?_⟩
  cases answer with
  | raised e => exact raises e
  | value result => exact values _ (by simp)
  | item i => exact values _ (by simp)
  | flag set => exact values _ (by simp)
  | time t => exact values _ (by simp)

theorem tryFinally_spec {body : Cmd α} {last : Cmd Unit} {good : α → δ → Prop}
    {bad : Raised → δ → Prop}
    (meets : Spec M (fun value h => Spec M (fun _ => good value) bad last h)
      (fun e h => (e = .killed → bad e h) ∧
        (e ≠ .killed → Spec M (fun _ => bad e) bad last h)) body d) :
    Spec M good bad (tryFinally body last) d := by
  refine Spec.bind (Spec.lift (Prog.wp_mono ?_ meets))
  rintro (e | value) h reached
  · cases e with
    | killed => exact Spec.throw (reached.1 rfl)
    | exception e =>
      exact Spec.bind ((reached.2 (by simp)).mono (fun _ _ done => Spec.throw done)
        fun _ _ raised => raised)
    | keyboardInterrupt =>
      exact Spec.bind ((reached.2 (by simp)).mono (fun _ _ done => Spec.throw done)
        fun _ _ raised => raised)
  · exact Spec.bind (reached.mono (fun _ _ done => Spec.pure done) fun _ _ raised => raised)

/-! ## Programs whose every act keeps an invariant -/

/-- The program keeps `inv`, and when it raises `stop` holds. -/
def Within (M : Monitor Act Answer δ) (inv : δ → Prop) (stop : Raised → δ → Prop) (p : Cmd α) :
    Prop :=
  ∀ d, inv d → Spec M (fun _ => inv) stop p d

section
variable {inv : δ → Prop} {stop : Raised → δ → Prop}

/-- The act can be performed where `inv` holds: it keeps it, or raises and stops. -/
structure Harmless (M : Monitor Act Answer δ) (inv : δ → Prop) (stop : Raised → δ → Prop)
    (a : Act) : Prop where
  allows : ∀ d answer, inv d → M.allows d (.read a answer)
  keeps : ∀ d answer, inv d → (∀ e, answer ≠ .raised e) → inv (M.follow d (.read a answer))
  stops : ∀ d e, inv d → stop e (M.follow d (.read a (.raised e)))

theorem Within.act {a : Act} (harmless : Harmless M inv stop a) : Within M inv stop (act a) :=
  fun d holds => act_spec (fun answer => harmless.allows d answer holds)
    (fun answer => harmless.keeps d answer holds) fun e => harmless.stops d e holds

/-- Where stopping is no worse than going on, the answer does not matter. -/
theorem Harmless.after {a : Act} (harmless : Harmless M inv (fun _ => inv) a) (answer : Answer)
    (holds : inv d) : inv (M.follow d (.read a answer)) := by
  cases answer with
  | raised e => exact harmless.stops d e holds
  | value result => exact harmless.keeps d _ holds (by simp)
  | item i => exact harmless.keeps d _ holds (by simp)
  | flag set => exact harmless.keeps d _ holds (by simp)
  | time t => exact harmless.keeps d _ holds (by simp)

theorem Harmless.of_all {a : Act} (allows : ∀ d answer, inv d → M.allows d (.read a answer))
    (keeps : ∀ d answer, inv d → inv (M.follow d (.read a answer))) :
    Harmless M inv (fun _ => inv) a :=
  ⟨allows, fun d answer holds _ => keeps d answer holds, fun d _ holds => keeps d _ holds⟩

theorem Within.throw {e : Raised} (stopped : ∀ d, inv d → stop e d) :
    Within M inv stop (MonadExcept.throw e : Cmd α) :=
  fun d holds => stopped d holds

theorem Within.pure (value : α) : Within M inv stop (Pure.pure value : Cmd α) :=
  fun _ holds => holds

theorem Within.bind {β : Type} {p : Cmd α} {f : α → Cmd β} (first : Within M inv stop p)
    (rest : ∀ value, Within M inv stop (f value)) : Within M inv stop (p >>= f) :=
  fun d holds => Spec.bind ((first d holds).mono (fun value h => rest value h) fun _ _ kept => kept)

theorem Within.onPorts (harmless : ∀ port written, Harmless M inv stop (.port port written))
    (p : Client α) : Within M inv stop (onPorts p) := by
  intro d holds
  change Prog.Wp M _ (onPortsProg p) d
  induction p generalizing d with
  | ret value => exact holds
  | read port next ih =>
    rw [onPortsProg]
    intro answer
    refine ⟨(harmless port none).allows d answer holds, ?_⟩
    cases answer with
    | raised e => exact (harmless port none).stops d e holds
    | value result => exact ih _ _ ((harmless port none).keeps d _ holds (by simp))
    | item i => exact ih _ _ ((harmless port none).keeps d _ holds (by simp))
    | flag set => exact ih _ _ ((harmless port none).keeps d _ holds (by simp))
    | time t => exact ih _ _ ((harmless port none).keeps d _ holds (by simp))
  | write port item next ih =>
    rw [onPortsProg]
    intro answer
    refine ⟨(harmless port (some item)).allows d answer holds, ?_⟩
    cases answer with
    | raised e => exact (harmless port (some item)).stops d e holds
    | value result => exact ih _ ((harmless port (some item)).keeps d _ holds (by simp))
    | item i => exact ih _ ((harmless port (some item)).keeps d _ holds (by simp))
    | flag set => exact ih _ ((harmless port (some item)).keeps d _ holds (by simp))
    | time t => exact ih _ ((harmless port (some item)).keeps d _ holds (by simp))

/-- Handlers may run wherever the invariant is all that is known of a raise. -/
theorem Within.tryCatch {p : Cmd α} {handler : Raised → Cmd α}
    (first : Within M inv (fun _ => inv) p) (rest : ∀ e, Within M inv stop (handler e)) :
    Within M inv stop (MonadExcept.tryCatch p handler) :=
  fun d holds => Spec.tryCatch ((first d holds).mono (fun _ _ kept => kept) fun e h => rest e h)

theorem Within.tryFinally {p : Cmd α} {last : Cmd Unit} (first : Within M inv (fun _ => inv) p)
    (rest : Within M inv (fun _ => inv) last) :
    Within M inv (fun _ => inv) (tryFinally p last) :=
  fun d holds => tryFinally_spec ((first d holds).mono (fun _ h => rest h)
    fun _ h kept => ⟨fun _ => kept, fun _ => rest h kept⟩)

/-- A program of connect or discovery, all of whose operations are in `ok`. -/
theorem Within.interruptible {ok : Op Call Reply → Prop} {p : Py α}
    (inside : Keeps (Monitor.only ok) p)
    (calls : ∀ d c reply answer, ok (.read c reply) → inv d →
      M.allows d (.read (.call c) answer) ∧ inv (M.follow d (.read (.call c) answer)))
    (tells : ∀ d c word answer, ok (.write c word) → inv d →
      M.allows d (.read (.tell c) answer) ∧ inv (M.follow d (.read (.tell c) answer))) :
    Within M inv (fun _ => inv) (interruptible p) := by
  intro d holds
  have meets := inside ()
  unfold Spec at meets ⊢
  change Prog.Wp M _ (interruptibleProg p.run) d
  generalize p.run = q at meets ⊢
  induction q generalizing d with
  | ret result =>
    cases result with
    | ok value => exact holds
    | error e => exact holds
  | read c next ih =>
    rw [interruptibleProg]
    intro answer
    obtain ⟨allowed, after⟩ := calls d c (.value none) answer (meets (.value none)).1 holds
    refine ⟨allowed, ?_⟩
    beta_reduce
    cases answer.reply with
    | ok reply => exact ih reply _ after (meets reply).2
    | error e => exact after
  | write c word next ih =>
    rw [interruptibleProg]
    intro answer
    obtain ⟨allowed, after⟩ := tells d c word answer meets.1 holds
    refine ⟨allowed, ?_⟩
    beta_reduce
    cases answer.reply with
    | ok reply => exact ih _ after meets.2
    | error e => exact after

/-- What `console_loop` does once the terminal is raw. -/
theorem Within.pumpLoop (select : Harmless M inv stop .select)
    (ports : ∀ port written, Harmless M inv stop (.port port written))
    (ended : ∀ d, inv d → stop .killed d) (polls rounds : Nat) :
    Within M inv stop (pumpLoop polls rounds) := by
  induction rounds with
  | zero => exact .throw ended
  | succ rounds ih =>
    refine .bind (.act select) fun ready => .bind (.onPorts ports _) fun more => ?_
    cases more with
    | true => exact ih
    | false => exact .pure ()

end

/-! ## What a command does with a board -/

/-- The acts of a session: no call of board.py or discovery.py but the two that read the
identifier. -/
def InSession : Act → Prop
  | .call (.identifierMem _) => True
  | .call (.readWord _ _) => True
  | .call _ => False
  | .tell _ => False
  | _ => True

section
variable {inv : δ → Prop} (harmless : ∀ a, InSession a → Harmless M inv (fun _ => inv) a)
include harmless

theorem identifier_within (client : Nat) :
    Within M inv (fun _ => inv) (interruptible (identifier client)) := by
  have inside : Keeps (Monitor.only fun o => ∃ c reply, o = .read c reply ∧ InSession (.call c))
      (identifier client) :=
    HostRuns.identifier_keeps (call_keeps (fun _ _ => ⟨_, _, rfl, trivial⟩) fun _ _ => rfl)
      fun _ => call_keeps (fun _ _ => ⟨_, _, rfl, trivial⟩) fun _ _ => rfl
  refine .interruptible inside ?_ ?_
  · rintro d c reply answer ⟨c, reply, ⟨⟩, read⟩ holds
    exact ⟨(harmless _ read).allows d answer holds, (harmless _ read).after answer holds⟩
  · rintro d c word answer ⟨c, reply, same, -⟩
    exact nomatch same

theorem consoleLoop_within (polls rounds : Nat) :
    Within M inv (fun _ => inv) (consoleLoop polls rounds) := by
  have quiet : ∀ a, InSession a → Within M inv (fun _ => inv) (act a) :=
    fun a inside => .act (harmless a inside)
  refine .bind (quiet _ trivial) fun settings => .tryFinally (.tryCatch ?_ fun e => ?_) ?_
  · refine .bind (quiet _ trivial) fun _ => .bind (quiet _ trivial) fun _ => ?_
    exact .pumpLoop (harmless _ trivial) (fun _ _ => harmless _ trivial) (fun _ holds => holds) _ _
  · split
    · exact .pure ()
    · exact .throw fun _ holds => holds
  · exact .bind (quiet _ trivial) fun _ => .pure ()

theorem loginSession_within (quoted : String → String) (polls rounds : Nat) (board : Board) :
    Within M inv (fun _ => inv) (loginSession quoted polls rounds board) :=
  .bind (identifier_within harmless board.client) fun _ =>
    .bind (.act (harmless _ trivial)) fun _ => consoleLoop_within harmless polls rounds

theorem measureRtt_within (reads : Nat) : Within M inv (fun _ => inv) (measureRtt reads) := by
  have reading : ∀ left, Within M inv (fun _ => inv) (rttReads left) := by
    intro left
    induction left with
    | zero => exact .pure ()
    | succ left ih => exact .bind (.act (harmless _ trivial)) fun _ => ih
  refine .bind (.act (harmless _ trivial)) fun _ => .bind (reading reads) fun _ => ?_
  exact .bind (.act (harmless _ trivial)) fun _ => .pure _

theorem statusSession_within (milliseconds : Answer → Answer → String) (rtt : Bool)
    (board : Board) : Within M inv (fun _ => inv) (statusSession milliseconds rtt board) := by
  refine .bind (identifier_within harmless board.client) fun _ =>
    .bind (.act (harmless _ trivial)) fun _ => .bind (.act (harmless _ trivial)) fun _ => ?_
  cases rtt with
  | true =>
    exact .bind (measureRtt_within harmless rttDefaultReads) fun _ =>
      .bind (.act (harmless _ trivial)) fun _ => .pure ()
  | false => exact .pure ()

end

theorem discoveryFailureMessage_within {inv : δ → Prop}
    (asked : Harmless M inv (fun _ => inv) (.call .localIpv4)) (candidates : String → List String) :
    Within M inv (fun _ => inv) (discoveryFailureMessage candidates) := by
  refine .bind (.tryCatch (.bind (.act asked) fun answer => ?_) fun e => ?_) fun _ => .pure _
  · split
    · exact .pure _
    · exact .pure _
  · cases e with
    | exception e =>
      dsimp only
      split
      · exact .pure _
      · exact .throw fun _ holds => holds
    | keyboardInterrupt => exact .throw fun _ holds => holds
    | killed => exact .throw fun _ holds => holds

/-! ## Monitors of connect and discovery, over the acts of a command -/

/-- The history of `m`, and the last act with its answer. An interrupted call counts as
asked for and not made; `own` limits the acts that are no calls. -/
def watched (own : γ → Act → Prop) (m : Monitor Call Reply γ) :
    Monitor Act Answer (γ × Option (Op Act Answer)) where
  follow s o := (match o with
    | .read (.call c) answer =>
      match answer.reply with
      | .ok reply => m.follow s.1 (.read c reply)
      | .error _ => s.1
    | .read (.tell c) answer =>
      match answer.reply with
      | .ok _ => m.follow s.1 (.write c (.value none))
      | .error _ => s.1
    | _ => s.1, some o)
  allows s
    | .read (.call c) _ => ∃ reply, m.allows s.1 (.read c reply)
    | .read (.tell c) _ => m.allows s.1 (.write c (.value none))
    | .read a _ => own s.1 a
    | .write _ _ => True

section
variable {own : γ → Act → Prop} {m : Monitor Call Reply γ} {s : γ × Option (Op Act Answer)}
  {c : Call} {answer : Answer}

theorem watched_call {reply : Reply} (seen : answer.reply = .ok reply) :
    (watched own m).follow s (.read (.call c) answer) =
      (m.follow s.1 (.read c reply), some (.read (.call c) answer)) := by
  simp [watched, seen]

theorem watched_call_error {e : Raised} (unseen : answer.reply = .error e) :
    (watched own m).follow s (.read (.call c) answer) = (s.1, some (.read (.call c) answer)) := by
  simp [watched, unseen]

theorem watched_tell {reply : Reply} (seen : answer.reply = .ok reply) :
    (watched own m).follow s (.read (.tell c) answer) =
      (m.follow s.1 (.write c (.value none)), some (.read (.tell c) answer)) := by
  simp [watched, seen]

theorem watched_tell_error {e : Raised} (unseen : answer.reply = .error e) :
    (watched own m).follow s (.read (.tell c) answer) = (s.1, some (.read (.tell c) answer)) := by
  simp [watched, unseen]

/-- A call that returns is seen as returning. -/
theorem reply_of_value (value : ∀ e, answer ≠ .raised e) :
    ∃ result, answer.reply = .ok (.value result) := by
  cases answer with
  | raised e => exact absurd rfl (value e)
  | value result => exact ⟨result, rfl⟩
  | item i => exact ⟨none, rfl⟩
  | flag set => exact ⟨none, rfl⟩
  | time t => exact ⟨none, rfl⟩

/-- A call that the monitor ignores, interrupted or not. -/
theorem watched_call_same (same : ∀ reply, m.follow s.1 (.read c reply) = s.1) :
    ((watched own m).follow s (.read (.call c) answer)).1 = s.1 := by
  cases seen : answer.reply with
  | ok reply => rw [watched_call seen, same]
  | error e => rw [watched_call_error seen]

/-- A session under a monitor that ignores the two calls it makes: it stays in its history. -/
theorem session_harmless {g : γ} (owns : ∀ a, InSession a → own g a)
    (reads : ∀ c reply, InSession (.call c) → m.allows g (.read c reply) ∧
      m.follow g (.read c reply) = g) (a : Act) (inside : InSession a) :
    Harmless (watched own m) (fun s => s.1 = g) (fun _ s => s.1 = g) a := by
  refine .of_all ?_ ?_
  · rintro s answer rfl
    simp only [watched]
    split
    · rename_i c word same
      obtain ⟨rfl, rfl⟩ := Op.read.inj same
      exact ⟨.value none, (reads c _ inside).1⟩
    · rename_i c word same
      obtain ⟨rfl, rfl⟩ := Op.read.inj same
      exact inside.elim
    · rename_i same
      obtain ⟨rfl, rfl⟩ := Op.read.inj same
      exact owns _ inside
    · trivial
  · rintro s answer rfl
    cases a with
    | call c => exact watched_call_same fun reply => (reads c reply inside).2
    | tell c => exact inside.elim
    | _ => rfl

end

/-- The act that was interrupted is the last. -/
def Interrupted (last : Option (Op Act Answer)) : Prop :=
  ∃ a, last = some (.read a (.raised .keyboardInterrupt))

/-- How a program that is interrupted can end. -/
def endsBy (bad : Exn → γ → Prop) : Raised → γ × Option (Op Act Answer) → Prop
  | .exception e, s => bad e s.1
  | .keyboardInterrupt, s => Interrupted s.2
  | .killed, _ => True

theorem endsBy_of_error {bad : Exn → γ → Prop} {answer : Answer} {e : Raised}
    (unseen : answer.reply = .error e) (g : γ) (a : Act) :
    endsBy bad e (g, some (.read a answer)) := by
  cases answer with
  | raised raised =>
    cases raised with
    | exception e => simp [Answer.reply] at unseen
    | keyboardInterrupt =>
      obtain rfl : Raised.keyboardInterrupt = e := by simpa [Answer.reply] using unseen
      exact ⟨a, rfl⟩
    | killed =>
      obtain rfl : Raised.killed = e := by simpa [Answer.reply] using unseen
      trivial
  | value result => simp [Answer.reply] at unseen
  | item i => simp [Answer.reply] at unseen
  | flag set => simp [Answer.reply] at unseen
  | time t => simp [Answer.reply] at unseen

/-- The monitor does not look at the word of a call that cannot raise: it has none. -/
def Blind (m : Monitor Call Reply γ) : Prop :=
  ∀ g c word, m.follow g (.write c word) = m.follow g (.write c (.value none)) ∧
    (m.allows g (.write c word) → m.allows g (.write c (.value none)))

theorem interruptible_spec {own : γ → Act → Prop} {m : Monitor Call Reply γ} (blind : Blind m)
    {good : α → γ → Prop} {bad : Exn → γ → Prop} {p : Py α} {g : γ} (meets : Spec m good bad p g)
    (last : Option (Op Act Answer)) :
    Spec (watched own m) (fun value s => good value s.1) (endsBy bad) (interruptible p)
      (g, last) := by
  unfold Spec at meets ⊢
  change Prog.Wp (watched own m) _ (interruptibleProg p.run) (g, last)
  generalize p.run = q at meets ⊢
  induction q generalizing g last with
  | ret result =>
    cases result with
    | ok value => exact meets
    | error e => exact meets
  | read c next ih =>
    rw [interruptibleProg]
    intro answer
    refine ⟨⟨_, (meets (.value none)).1⟩, ?_⟩
    beta_reduce
    cases seen : answer.reply with
    | ok reply =>
      rw [watched_call seen]
      exact ih reply _ (meets reply).2
    | error e =>
      rw [watched_call_error seen]
      exact endsBy_of_error seen g _
  | write c word next ih =>
    obtain ⟨same, allowed⟩ := blind g c word
    rw [interruptibleProg]
    intro answer
    refine ⟨allowed meets.1, ?_⟩
    beta_reduce
    cases seen : answer.reply with
    | ok reply =>
      rw [watched_tell seen, ← same]
      exact ih _ meets.2
    | error e =>
      rw [watched_tell_error seen]
      exact endsBy_of_error seen g _

end Remote8008.System.CommandRuns
