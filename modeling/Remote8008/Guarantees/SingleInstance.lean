import Remote8008.Lib.Processes
import Remote8008.System.CommandRuns
import Remote8008.System.HostPrograms

/-!
# One session at a time

host/b8008net/board.py:27-61 and the commands of cli.py, run by any number of processes at
once. The lock file is shared; a process can be interrupted at any act and killed at any
moment, and the system then frees its lock. Whatever the interleaving, a process works on
the server or on the registers of the board only while it owns the lock, so two processes
do so only with a successful `flock` of the second between.
-/

namespace Remote8008.Guarantees.SingleInstance
open Lib Lib.Interaction Lib.Processes Source.Discovery Source.BoardConnect Source.Cli
open Source.Commands System.CommandRuns System.HostPrograms

/-! ## The lock file -/

/-- A `flock` that took the lock. -/
def Grants (o : Op Act Answer) : Prop :=
  ∃ attempt answer result, o = .read (.call (.flock attempt)) answer ∧
    answer.reply = .ok (.value result)

/-- A release of the lock. -/
def Frees (o : Op Act Answer) : Prop :=
  ∃ attempt answer reply, o = .read (.tell (.unlock attempt)) answer ∧ answer.reply = .ok reply

/-- The owner of the lock. `LOCK_NB`: it is granted only when nobody has it, this process
included, and the system frees it when its owner is gone. -/
def lockfile : Shared (Option Nat) Act Answer where
  follow owner who
    | .read (.call (.flock _)) answer =>
      match answer.reply with
      | .ok (.value _) => if owner = none then some (some who) else none
      | .ok (.raised _) | .error _ => some owner
    | .read (.tell (.unlock _)) answer =>
      match answer.reply with
      | .ok _ => some (if owner = some who then none else owner)
      | .error _ => some owner
    | _ => some owner
  leave owner who := if owner = some who then none else owner

/-- All that an operation can do to the owner. -/
theorem lockfile_follow {owner owner' : Option Nat} {who : Nat} {o : Op Act Answer}
    (followed : lockfile.follow owner who o = some owner') :
    (Grants o ∧ owner = none ∧ owner' = some who) ∨
      (¬ Grants o ∧ (owner' = owner ∨ (Frees o ∧ owner = some who ∧ owner' = none))) := by
  simp only [lockfile] at followed
  split at followed
  · rename_i attempt answer
    split at followed
    · split at followed
      · exact .inl ⟨⟨_, _, _, rfl, ‹_›⟩, ‹_›, (Option.some.inj followed).symm⟩
      · exact nomatch followed
    · rename_i seen
      refine .inr ⟨?_, .inl (Option.some.inj followed).symm⟩
      rintro ⟨_, _, _, ⟨⟩, granted⟩
      exact nomatch seen.symm.trans granted
    · rename_i seen
      refine .inr ⟨?_, .inl (Option.some.inj followed).symm⟩
      rintro ⟨_, _, _, ⟨⟩, granted⟩
      exact nomatch seen.symm.trans granted
  · refine .inr ⟨?_, ?_⟩
    · rintro ⟨_, _, _, same, -⟩
      exact nomatch same
    · split at followed
      · split at followed
        · exact .inr ⟨⟨_, _, _, rfl, ‹_›⟩, ‹_›, (Option.some.inj followed).symm⟩
        · exact .inl (Option.some.inj followed).symm
      · exact .inl (Option.some.inj followed).symm
  · rename_i other _
    refine .inr ⟨?_, .inl (Option.some.inj followed).symm⟩
    rintro ⟨attempt, answer, _, same, -⟩
    exact other attempt answer same

/-! ## What a command knows -/

/-- Calls on the server or, through it, on the board. -/
def OnServer : Call → Prop
  | .connectPort | .spawn _ | .terminate _ | .waitTimeout _ | .kill _ | .wait _ => True
  | .clientFactory _ | .clientOpen _ | .clientClose _ => True
  | .identifierMem _ | .readWord _ _ => True
  | _ => False

/-- Acts on the server or on the registers of the board. -/
def Touches : Act → Prop
  | .call c => OnServer c
  | .tell c => OnServer c
  | .port (.csr _) _ => True
  | _ => False

/-- Whether this process has taken the lock and not released it. -/
def guarded : Monitor Call Reply Bool where
  follow held
    | .read (.flock _) (.value _) => true
    | .write (.unlock _) _ => false
    | _ => held
  allows held
    | .read c _ => OnServer c → held = true
    | .write c _ => OnServer c → held = true

def holding : Monitor Act Answer (Bool × Option (Op Act Answer)) :=
  watched (fun held a => Touches a → held = true) guarded

abbrev History := Bool × Option (Op Act Answer)

/-- A program that keeps to the monitor, wherever it ends. -/
abbrev Keeping {α : Type} (p : Cmd α) (s : History) : Prop :=
  Spec holding (fun _ _ => True) (fun _ _ => True) p s

/-- A command as a process starts it. -/
structure Job where
  setup : Setup
  args : Args
  command : Command

def Job.program (job : Job) : Prog Act Answer (Except Raised Nat) :=
  (main job.setup job.args job.command).run

abbrev Trace := List (Entry (Option Nat) Act Answer)

/-- The state of the system after the events: commands started, acts performed, processes
gone. -/
def after (events : List (Event Job Answer)) : Pool (Option Nat) Act Answer (Except Raised Nat) :=
  Machine.run (step lockfile Job.program) (Pool.empty none) events

/-- The lock was granted to `who`, and since then it had no other owner. -/
def GrantedTo (who : Nat) (trace : Trace) : Prop :=
  ∃ earlier grant since, trace = earlier ++ grant :: since ∧ grant.who = who ∧ Grants grant.op ∧
    grant.met = none ∧ ∀ entry ∈ since, entry.met = some who

/-- Whoever owns the lock, now or at some act, was granted it before. -/
structure Accounted (s : Pool (Option Nat) Act Answer (Except Raised Nat)) : Prop where
  now : ∀ who, s.shared = some who → GrantedTo who s.trace
  ever : ∀ before entry later who, s.trace = before ++ entry :: later →
    entry.met = some who → GrantedTo who before

theorem GrantedTo.concat {who : Nat} {trace : Trace} (granted : GrantedTo who trace)
    {entry : Entry (Option Nat) Act Answer} (met : entry.met = some who) :
    GrantedTo who (trace ++ [entry]) := by
  obtain ⟨earlier, grant, since, rfl, his, grants, free, steady⟩ := granted
  refine ⟨earlier, grant, since ++ [entry], by simp, his, grants, free, fun other member => ?_⟩
  rcases List.mem_append.mp member with old | new
  · exact steady other old
  · obtain rfl := List.mem_singleton.mp new
    exact met

theorem Accounted.perform {s : Pool (Option Nat) Act Answer (Except Raised Nat)}
    (accounted : Accounted s) {who : Nat} {o : Op Act Answer} {owner : Option Nat}
    (followed : lockfile.follow s.shared who o = some owner)
    (running : Nat → Option (Prog Act Answer (Except Raised Nat))) :
    Accounted ⟨owner, running, s.trace ++ [⟨s.shared, who, o⟩]⟩ := by
  refine ⟨fun holder owned => ?_, fun before entry later holder split met => ?_⟩
  · rcases lockfile_follow followed with ⟨grants, free, taken⟩ | ⟨-, same | ⟨-, -, freed⟩⟩
    · obtain rfl : who = holder := Option.some.inj (taken.symm.trans owned)
      exact ⟨s.trace, ⟨s.shared, who, o⟩, [], rfl, rfl, grants, free, by simp⟩
    · have held : s.shared = some holder := same.symm.trans owned
      exact (accounted.now holder held).concat held
    · exact nomatch freed.symm.trans owned
  · rcases concat_eq_append_cons split with ⟨rfl, rfl⟩ | ⟨others, front⟩
    · exact accounted.now holder met
    · exact accounted.ever before entry others holder front met

/-- `status` with an explicit host. -/
def statusJob : Job :=
  ⟨⟨fun _ _ => "", fun _ => [], id, 3, 3, 3⟩, ⟨some "10.0.0.7", false, false⟩, .status⟩

-- the second process cannot be granted the lock until the first is killed
example :
    (after [.start 0 statusJob, .start 1 statusJob, .act 0 (.value none), .act 0 (.value none),
      .act 1 (.value none), .act 1 (.value none), .act 0 (.value none), .stop 0,
      .act 1 (.value none), .act 1 (.value none)]).trace.map (fun entry => (entry.who, entry.met)) =
    [(0, none), (0, none), (1, some 0), (0, some 0), (1, none), (1, some 1)] := by
  decide +kernel

end Remote8008.Guarantees.SingleInstance
