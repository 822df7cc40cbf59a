import Remote8008.System.CommandRuns

/-!
# The terminal is given back

host/b8008net/console.py:240-280. `console_loop` puts the terminal in raw mode and reads
the keys of a user who may interrupt it anywhere. On every path that runs to its end the
settings it saved are the last thing it writes, once, and what it raises is what the
session raised, an interruption apart, or what restoring the settings raised.
-/

namespace Remote8008.Guarantees.TerminalRestored
open Lib.Interaction Source.ConsolePump Source.Commands System.CommandRuns

/-- Saving or restoring the settings. -/
def OfSettings : Op Act Answer → Prop
  | .read .tcgetattr _ => True
  | .read (.tcsetattr _) _ => True
  | _ => False

/-- The settings are saved and the session goes on: nothing has raised. -/
def Running (settings : Answer) (ops : List (Op Act Answer)) : Prop :=
  ∃ session, ops = .read .tcgetattr settings :: session ∧
    ∀ o ∈ session, ¬ OfSettings o ∧ ∀ a e, o ≠ .read a (.raised e)

/-- The session has raised `e`, unless the process is gone. -/
def Stopped (settings : Answer) (e : Raised) (ops : List (Op Act Answer)) : Prop :=
  e = .killed ∨ ∃ session, ops = .read .tcgetattr settings :: session ∧
    (∀ o ∈ session, ¬ OfSettings o) ∧ ∃ a, session.getLast? = some (.read a (.raised e))

/-- How the session ended, by its last act: an interruption is no error. -/
def sessionOutcome (session : List (Op Act Answer)) : Except Raised Unit :=
  match session.getLast? with
  | some (.read _ (.raised (.exception e))) => .error (.exception e)
  | _ => .ok ()

/-- The outcome after the settings were written back. -/
def closingOutcome (outcome : Except Raised Unit) : Answer → Except Raised Unit
  | .raised e => .error e
  | _ => outcome

/-- The settings were saved, the session neither saved nor restored any, and they were
written back. -/
def Restored (result : Except Raised Unit) (ops : List (Op Act Answer)) : Prop :=
  ∃ settings session answer,
    ops = .read .tcgetattr settings :: (session ++ [.read (.tcsetattr settings) answer]) ∧
    (∀ o ∈ session, ¬ OfSettings o) ∧ result = closingOutcome (sessionOutcome session) answer

theorem harmless {settings : Answer} {a : Act} (free : ∀ answer, ¬ OfSettings (.read a answer)) :
    Harmless Monitor.record (Running settings) (Stopped settings) a where
  allows _ _ _ := trivial
  keeps := by
    rintro ops answer ⟨session, rfl, quiet⟩ value
    refine ⟨session ++ [.read a answer], rfl, fun o member => ?_⟩
    rcases List.mem_append.mp member with old | new
    · exact quiet o old
    · obtain rfl := List.mem_singleton.mp new
      exact ⟨free answer, fun b e same => value e (Op.read.inj same).2⟩
  stops := by
    rintro ops e ⟨session, rfl, quiet⟩
    refine .inr ⟨session ++ [.read a (.raised e)], rfl, fun o member => ?_, a, by simp⟩
    rcases List.mem_append.mp member with old | new
    · exact (quiet o old).1
    · obtain rfl := List.mem_singleton.mp new
      exact free _

theorem sessionOutcome_running {session : List (Op Act Answer)}
    (quiet : ∀ o ∈ session, ∀ a e, o ≠ .read a (.raised e)) : sessionOutcome session = .ok () := by
  unfold sessionOutcome
  split
  · rename_i a e last
    exact absurd rfl (quiet _ (List.mem_of_getLast? last) a _)
  · rfl

/-- The `finally` clause, after a session with this outcome. -/
theorem restore_spec {settings : Answer} {session : List (Op Act Answer)}
    (quiet : ∀ o ∈ session, ¬ OfSettings o) :
    Spec Monitor.record (fun _ ops => Restored (sessionOutcome session) ops)
      (fun e ops => Restored (.error e) ops)
      (do let _ ← act (.tcsetattr settings)) (.read .tcgetattr settings :: session) := by
  refine Spec.bind (act_spec (fun _ => trivial) (fun answer value => ?_) fun e => ?_)
  · refine ⟨settings, session, answer, rfl, quiet, ?_⟩
    cases answer with
    | raised e => exact absurd rfl (value e)
    | value result => rfl
    | item i => rfl
    | flag set => rfl
    | time t => rfl
  · exact ⟨settings, session, .raised e, rfl, quiet, rfl⟩

/-- The protected block of `console_loop`, up to its `finally`. -/
theorem session_spec (polls rounds : Nat) (settings : Answer) :
    Spec Monitor.record (fun _ => Running settings) (Stopped settings)
      (do
        let _ ← act .setraw
        let _ ← act (.eprint "-- b8008net console: Ctrl-] to exit --\r")
        pumpLoop polls rounds) [.read .tcgetattr settings] := by
  have session : Within Monitor.record (Running settings) (Stopped settings) (do
      let _ ← act .setraw
      let _ ← act (.eprint "-- b8008net console: Ctrl-] to exit --\r")
      pumpLoop polls rounds) := by
    refine .bind (.act (harmless fun _ => id)) fun _ => .bind (.act (harmless fun _ => id)) ?_
    exact fun _ => .pumpLoop (harmless fun _ => id) (fun _ _ => harmless fun _ => id)
      (fun _ _ => .inl rfl) polls rounds
  exact session _ ⟨[], rfl, by simp⟩

theorem consoleLoop_spec (polls rounds : Nat) :
    Spec Monitor.record (fun _ ops => Restored (.ok ()) ops)
      (fun e ops => e = .killed ∨ ops = [.read .tcgetattr (.raised e)] ∨ Restored (.error e) ops)
      (consoleLoop polls rounds) [] := by
  refine Spec.bind (act_spec (fun _ => trivial) (fun settings _ => ?_) fun e => .inr (.inl rfl))
  refine tryFinally_spec (Spec.tryCatch ((session_spec polls rounds settings).mono ?_ ?_))
  · -- Ctrl-] or the end of the input
    rintro - ops ⟨session, rfl, quiet⟩
    refine (restore_spec fun o member => (quiet o member).1).mono ?_ fun e ops back => ?_
    · intro _ ops restored
      rwa [sessionOutcome_running fun o member => (quiet o member).2] at restored
    · exact .inr (.inr back)
  · rintro e ops (rfl | ⟨session, rfl, quiet, a, last⟩)
    · rw [if_neg (by simp)]
      exact Spec.throw ⟨fun _ => .inl rfl, fun alive => absurd rfl alive⟩
    · have back := @restore_spec settings session quiet
      cases e with
      | killed =>
        rw [if_neg (by simp)]
        exact Spec.throw ⟨fun _ => .inl rfl, fun alive => absurd rfl alive⟩
      | keyboardInterrupt =>
        have outcome : sessionOutcome session = .ok () := by simp [sessionOutcome, last]
        rw [outcome] at back
        rw [if_pos rfl]
        exact Spec.pure (back.mono (fun _ _ restored => restored)
          fun _ _ again => .inr (.inr again))
      | exception e =>
        have outcome : sessionOutcome session = .error (.exception e) := by
          simp [sessionOutcome, last]
        rw [outcome] at back
        rw [if_neg (by simp)]
        refine Spec.throw ⟨fun killed => by simp at killed, fun _ => ?_⟩
        exact back.mono (fun _ _ restored => .inr (.inr restored))
          fun _ _ again => .inr (.inr again)

/-- Whatever the board, the user and the terminal answer: unless the process is killed (or
still runs), `console_loop` either could not read the settings and did nothing, or saved
them first and wrote them back as its very last act, each once, whatever `tty.setraw` made
of them in between. What it raises is what writing them back raised, else what its session
raised; an interruption of the session is not raised. -/
theorem console_restores_terminal (environment : List (Op Act Answer) → Act → Answer)
    (polls rounds : Nat) :
    let run := (consoleLoop polls rounds).run.perform environment []
    run.1 = .error .killed ∨
    (∃ e, run = (.error e, [.read .tcgetattr (.raised e)])) ∨
    ∃ settings session answer,
      run.2 = .read .tcgetattr settings :: (session ++ [.read (.tcsetattr settings) answer]) ∧
      (∀ o ∈ session, ¬ OfSettings o) ∧
      run.1 = closingOutcome (sessionOutcome session) answer := by
  intro run
  obtain ⟨returns, raises⟩ := (consoleLoop_spec polls rounds).perform_record environment
  cases result : run.1 with
  | ok value =>
    exact .inr (.inr (returns value result))
  | error e =>
    rcases raises e result with rfl | early | restored
    · exact .inl rfl
    · exact .inr (.inl ⟨e, Prod.ext result early⟩)
    · exact .inr (.inr restored)

end Remote8008.Guarantees.TerminalRestored
