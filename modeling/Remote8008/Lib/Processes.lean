import Remote8008.Lib.Machine
import Remote8008.Lib.ProgramLogic

/-!
# Programs that share a resource

Any number of processes, each running an interaction program, over one shared state. A
process starts with a job, performs its operations one at a time in any order relative to
the others, and can be gone at any moment. `Protects` lists what a monitor of the single
program must guarantee for a property to hold in every such pool.
-/

namespace Remote8008.Lib.Processes
open Interaction

variable {σ ρ ω γ κ α : Type}

/-- The shared state. `follow` refuses the answers that it rules out; `leave` is the end of
a process, whatever its program was doing. -/
structure Shared (σ ρ ω : Type) where
  follow : σ → Nat → Op ρ ω → Option σ
  leave : σ → Nat → σ

/-- An operation as it was performed: the shared state it met, and by whom. -/
structure Entry (σ ρ ω : Type) where
  met : σ
  who : Nat
  op : Op ρ ω
  deriving DecidableEq, Repr

structure Pool (σ ρ ω α : Type) where
  shared : σ
  running : Nat → Option (Prog ρ ω α)
  trace : List (Entry σ ρ ω)

inductive Event (κ ω : Type) where
  | start (who : Nat) (job : κ)
  | act (who : Nat) (word : ω)
  | stop (who : Nat)
  deriving DecidableEq, Repr

def Pool.empty (shared : σ) : Pool σ ρ ω α := ⟨shared, fun _ => none, []⟩

/-- One operation, if the shared state admits it. -/
def Pool.perform (w : Shared σ ρ ω) (s : Pool σ ρ ω α) (who : Nat) (o : Op ρ ω)
    (next : Prog ρ ω α) : Pool σ ρ ω α :=
  match w.follow s.shared who o with
  | none => s
  | some shared =>
    ⟨shared, Function.update s.running who (some next), s.trace ++ [⟨s.shared, who, o⟩]⟩

def step (w : Shared σ ρ ω) (program : κ → Prog ρ ω α) (s : Pool σ ρ ω α) :
    Event κ ω → Pool σ ρ ω α
  | .start who job =>
    match s.running who with
    | none => { s with running := Function.update s.running who (some (program job)) }
    | some _ => s
  | .act who word =>
    match s.running who with
    | none | some (.ret _) => s
    | some (.read reg next) => s.perform w who (.read reg word) (next word)
    | some (.write reg value next) => s.perform w who (.write reg value) next
  | .stop who =>
    { s with shared := w.leave s.shared who, running := Function.update s.running who none }

/-- What an operation can do to the pool, and what the program of the process is then. -/
inductive Move (w : Shared σ ρ ω) (program : κ → Prog ρ ω α) (s : Pool σ ρ ω α) :
    Pool σ ρ ω α → Prop
  | idle : Move w program s s
  | start (who : Nat) (job : κ) : s.running who = none →
    Move w program s { s with running := Function.update s.running who (some (program job)) }
  | read (who : Nat) (reg : ρ) (word : ω) (next : ω → Prog ρ ω α) (shared : σ) :
    s.running who = some (.read reg next) → w.follow s.shared who (.read reg word) = some shared →
    Move w program s ⟨shared, Function.update s.running who (some (next word)),
      s.trace ++ [⟨s.shared, who, .read reg word⟩]⟩
  | write (who : Nat) (reg : ρ) (value : ω) (next : Prog ρ ω α) (shared : σ) :
    s.running who = some (.write reg value next) →
    w.follow s.shared who (.write reg value) = some shared →
    Move w program s ⟨shared, Function.update s.running who (some next),
      s.trace ++ [⟨s.shared, who, .write reg value⟩]⟩
  | stop (who : Nat) : Move w program s
      { s with shared := w.leave s.shared who, running := Function.update s.running who none }

theorem step_moves (w : Shared σ ρ ω) (program : κ → Prog ρ ω α) (s : Pool σ ρ ω α)
    (e : Event κ ω) : Move w program s (step w program s e) := by
  cases e with
  | start who job =>
    simp only [step]
    split
    · exact .start who job ‹_›
    · exact .idle
  | act who word =>
    simp only [step]
    split
    · exact .idle
    · exact .idle
    · simp only [Pool.perform]
      split
      · exact .idle
      · exact .read who _ word _ _ ‹_› ‹_›
    · simp only [Pool.perform]
      split
      · exact .idle
      · exact .write who _ _ _ _ ‹_› ‹_›
  | stop who => exact .stop who

/-- `link` says what the history of a process knows about the shared state. The process
keeps it by its own operations, which are then `good`; no other process breaks it. -/
structure Protects (w : Shared σ ρ ω) (m : Monitor ρ ω γ) (link : Nat → γ → σ → Prop)
    (good : Entry σ ρ ω → Prop) : Prop where
  own : ∀ {who g o s s'}, link who g s → m.allows g o → w.follow s who o = some s' →
    good ⟨s, who, o⟩ ∧ link who (m.follow g o) s'
  others : ∀ {who g o s s' other g'}, link who g s → m.allows g o → w.follow s who o = some s' →
    other ≠ who → link other g' s → link other g' s'
  leaves : ∀ {who s other g'}, other ≠ who → link other g' s → link other g' (w.leave s who)

/-- Every process is at a program that its monitor covers, and all that happened is good. -/
structure Covered (m : Monitor ρ ω γ) (link : Nat → γ → σ → Prop) (good : Entry σ ρ ω → Prop)
    (s : Pool σ ρ ω α) : Prop where
  running : ∀ who p, s.running who = some p →
    ∃ g, link who g s.shared ∧ p.Wp m (fun _ _ => True) g
  trace : ∀ entry ∈ s.trace, good entry

section
variable {w : Shared σ ρ ω} {m : Monitor ρ ω γ} {link : Nat → γ → σ → Prop}
  {good : Entry σ ρ ω → Prop} {program : κ → Prog ρ ω α} {s t : Pool σ ρ ω α}

/-- The step of a process whose operation the monitor allows. -/
theorem Covered.perform (protects : Protects w m link good) (covered : Covered m link good s)
    {who : Nat} {g : γ} {o : Op ρ ω} {next : Prog ρ ω α} {shared : σ} (linked : link who g s.shared)
    (allowed : m.allows g o) (followed : w.follow s.shared who o = some shared)
    (meets : next.Wp m (fun _ _ => True) (m.follow g o)) :
    Covered m link good ⟨shared, Function.update s.running who (some next),
      s.trace ++ [⟨s.shared, who, o⟩]⟩ := by
  obtain ⟨fine, later⟩ := protects.own linked allowed followed
  refine ⟨fun other p runs => ?_, fun entry member => ?_⟩
  · by_cases mine : other = who
    · subst mine
      obtain rfl : next = p := by simpa using runs
      exact ⟨_, later, meets⟩
    · obtain ⟨g', linked', meets'⟩ := covered.running other p (by simpa [mine] using runs)
      exact ⟨g', protects.others linked allowed followed mine linked', meets'⟩
  · rcases List.mem_append.mp member with old | new
    · exact covered.trace entry old
    · obtain rfl := List.mem_singleton.mp new
      exact fine

theorem Covered.move (protects : Protects w m link good) {g₀ : γ} (fresh : ∀ who s, link who g₀ s)
    (meets : ∀ job, (program job).Wp m (fun _ _ => True) g₀) (covered : Covered m link good s)
    (move : Move w program s t) : Covered m link good t := by
  cases move with
  | idle => exact covered
  | start who job free =>
    refine ⟨fun other p runs => ?_, covered.trace⟩
    by_cases mine : other = who
    · subst mine
      obtain rfl : program job = p := by simpa using runs
      exact ⟨g₀, fresh other _, meets job⟩
    · exact covered.running other p (by simpa [mine] using runs)
  | read who reg word next shared runs followed =>
    obtain ⟨g, linked, promised⟩ := covered.running who _ runs
    exact covered.perform protects linked (promised word).1 followed (promised word).2
  | write who reg value next shared runs followed =>
    obtain ⟨g, linked, promised⟩ := covered.running who _ runs
    exact covered.perform protects linked promised.1 followed promised.2
  | stop who =>
    refine ⟨fun other p runs => ?_, covered.trace⟩
    have mine : other ≠ who := by
      rintro rfl
      simp at runs
    obtain ⟨g, linked, promised⟩ := covered.running other p (by simpa [mine] using runs)
    exact ⟨g, protects.leaves mine linked, promised⟩

end

end Remote8008.Lib.Processes
