import Remote8008.Lib.ProgramLogic

/-!
# Interaction programs that raise

Programs in the exception transformer over interaction programs. `Spec` is the weakest
precondition with one postcondition for values and one for exceptions, with a rule for
each way to build such a program. `runWith` runs a program against an environment with a
state; `perform` is the run against an environment that may answer by everything that
happened before, and what `Spec` promises holds in every such run.
-/

namespace Remote8008.Lib.Interaction

variable {ρ ω γ σ ε ε' α β : Type}

instance : Monad (Prog ρ ω) where
  pure := .ret
  bind := .bind

abbrev Raising (ρ ω ε : Type) := ExceptT ε (Prog ρ ω)

/-! ## Specifications -/

def Spec (m : Monitor ρ ω γ) (good : α → γ → Prop) (bad : ε → γ → Prop) (p : Raising ρ ω ε α) :
    γ → Prop :=
  Prog.Wp m (fun result g => match result with
    | .ok value => good value g
    | .error e => bad e g) p.run

section
variable {m : Monitor ρ ω γ} {good good' : α → γ → Prop} {bad bad' : ε → γ → Prop} {g : γ}

theorem Spec.mono {p : Raising ρ ω ε α} (meets : Spec m good bad p g)
    (values : ∀ value g, good value g → good' value g) (raises : ∀ e g, bad e g → bad' e g) :
    Spec m good' bad' p g := by
  refine Prog.wp_mono ?_ meets
  rintro (e | value) g reached
  · exact raises e g reached
  · exact values value g reached

theorem Spec.pure {value : α} (meets : good value g) :
    Spec m good bad (Pure.pure value : Raising ρ ω ε α) g := meets

theorem Spec.throw {e : ε} (meets : bad e g) :
    Spec m good bad (MonadExcept.throw e : Raising ρ ω ε α) g := meets

/-- Sequencing: an exception of the first program ends the whole. -/
theorem Spec.bind {good : β → γ → Prop} {p : Raising ρ ω ε α} {f : α → Raising ρ ω ε β}
    (meets : Spec m (fun value g => Spec m good bad (f value) g) bad p g) :
    Spec m good bad (p >>= f) g := by
  refine Prog.wp_bind (Prog.wp_mono ?_ meets)
  rintro (e | value) g reached
  · exact reached
  · exact reached

theorem Spec.tryCatch {p : Raising ρ ω ε α} {handler : ε → Raising ρ ω ε α}
    (meets : Spec m good (fun e g => Spec m good bad (handler e) g) p g) :
    Spec m good bad (MonadExcept.tryCatch p handler) g := by
  refine Prog.wp_bind (Prog.wp_mono ?_ meets)
  rintro (e | value) g reached
  · exact reached
  · exact reached

/-- Exceptions renamed on their way out. -/
theorem Spec.adapt {bad : ε' → γ → Prop} {rename : ε → ε'} {p : Raising ρ ω ε α}
    (meets : Spec m good (fun e g => bad (rename e) g) p g) :
    Spec m good bad (ExceptT.adapt rename p) g := by
  refine Prog.wp_bind (Prog.wp_mono ?_ meets)
  rintro (e | value) g reached
  · exact reached
  · exact reached

/-- A program whose exceptions are caught and handed on as data. -/
theorem Spec.lift {p : Prog ρ ω α} (meets : p.Wp m good g) :
    Spec m good bad (ExceptT.lift p : Raising ρ ω ε α) g :=
  Prog.wp_bind (Prog.wp_mono (fun _ _ reached => reached) meets)

end

/-- The program leaves the history variable alone, whatever it is told. -/
def Keeps (m : Monitor ρ ω γ) (p : Raising ρ ω ε α) : Prop :=
  ∀ g, Spec m (fun _ h => h = g) (fun _ h => h = g) p g

section
variable {m : Monitor ρ ω γ} {p : Raising ρ ω ε α}

theorem Keeps.pure (value : α) : Keeps m (Pure.pure value : Raising ρ ω ε α) := fun _ => rfl

theorem Keeps.throw (e : ε) : Keeps m (MonadExcept.throw e : Raising ρ ω ε α) := fun _ => rfl

theorem Keeps.bind {f : α → Raising ρ ω ε β} (first : Keeps m p)
    (rest : ∀ value, Keeps m (f value)) :
    Keeps m (p >>= f) := by
  intro g
  refine Spec.bind ((first g).mono ?_ fun _ _ same => same)
  rintro value h rfl
  exact rest value h

theorem Keeps.tryCatch {handler : ε → Raising ρ ω ε α} (first : Keeps m p)
    (rest : ∀ e, Keeps m (handler e)) : Keeps m (MonadExcept.tryCatch p handler) := by
  intro g
  refine Spec.tryCatch ((first g).mono (fun _ _ same => same) ?_)
  rintro e h rfl
  exact rest e h

theorem Keeps.adapt {rename : ε → ε'} (first : Keeps m p) : Keeps m (ExceptT.adapt rename p) :=
  fun g => Spec.adapt (first g)

/-- A program whose exceptions are caught and handed on as data. -/
theorem Keeps.lift (first : Keeps m p) :
    Keeps m (ExceptT.lift p.run : Raising ρ ω ε' (Except ε α)) := by
  intro g
  refine Spec.lift (Prog.wp_mono ?_ (first g))
  rintro (e | value) h same
  · exact same
  · exact same

/-- Framing: around a program that keeps the history, pre- and postcondition agree. -/
theorem Keeps.spec (keeps : Keeps m p) {good : α → γ → Prop} {bad : ε → γ → Prop} {g : γ}
    (values : ∀ value, good value g) (raises : ∀ e, bad e g) : Spec m good bad p g := by
  refine (keeps g).mono ?_ ?_
  · rintro value h rfl
    exact values value
  · rintro e h rfl
    exact raises e

end

/-! ## Runs -/

/-- A run against an environment with a state. -/
def Prog.runWith (read : σ → ρ → ω × σ) (write : σ → ρ → ω → σ) : Prog ρ ω α → σ → α × σ
  | ret value, s => (value, s)
  | .read reg next, s => (next (read s reg).1).runWith read write (read s reg).2
  | .write reg value next, s => next.runWith read write (write s reg value)

section
variable (read : σ → ρ → ω × σ) (write : σ → ρ → ω → σ)

theorem Prog.runWith_bind (p : Prog ρ ω α) (f : α → Prog ρ ω β) (s : σ) :
    (p.bind f).runWith read write s =
      (f (p.runWith read write s).1).runWith read write (p.runWith read write s).2 := by
  induction p generalizing s with
  | ret value => rfl
  | read reg next ih => exact ih _ _
  | write reg value next ih => exact ih _

/-- A run of a program that may raise. -/
def Raising.runWith (p : Raising ρ ω ε α) (s : σ) : Except ε α × σ :=
  Prog.runWith read write p.run s

@[simp] theorem Raising.runWith_throw (e : ε) (s : σ) :
    Raising.runWith read write (throw e : Raising ρ ω ε α) s = (.error e, s) := rfl

variable {read write} {p : Raising ρ ω ε α} {s s' : σ}

theorem Raising.runWith_bind_ok {f : α → Raising ρ ω ε β} {value : α}
    (first : Raising.runWith read write p s = (.ok value, s')) :
    Raising.runWith read write (p >>= f) s = Raising.runWith read write (f value) s' := by
  refine (Prog.runWith_bind read write p.run _ s).trans ?_
  rw [show p.run.runWith read write s = (.ok value, s') from first]
  rfl

theorem Raising.runWith_bind_error {f : α → Raising ρ ω ε β} {e : ε}
    (first : Raising.runWith read write p s = (.error e, s')) :
    Raising.runWith read write (p >>= f) s = (.error e, s') := by
  refine (Prog.runWith_bind read write p.run _ s).trans ?_
  rw [show p.run.runWith read write s = (.error e, s') from first]
  rfl

theorem Raising.runWith_tryCatch_ok {handler : ε → Raising ρ ω ε α} {value : α}
    (first : Raising.runWith read write p s = (.ok value, s')) :
    Raising.runWith read write (tryCatch p handler) s = (.ok value, s') := by
  refine (Prog.runWith_bind read write p.run _ s).trans ?_
  rw [show p.run.runWith read write s = (.ok value, s') from first]
  rfl

theorem Raising.runWith_tryCatch_error {handler : ε → Raising ρ ω ε α} {e : ε}
    (first : Raising.runWith read write p s = (.error e, s')) :
    Raising.runWith read write (tryCatch p handler) s =
      Raising.runWith read write (handler e) s' := by
  refine (Prog.runWith_bind read write p.run _ s).trans ?_
  rw [show p.run.runWith read write s = (.error e, s') from first]
  rfl

end

/-- The run against an environment that answers by all the operations before. -/
def Prog.perform (environment : List (Op ρ ω) → ρ → ω) (p : Prog ρ ω α)
    (ops : List (Op ρ ω)) : α × List (Op ρ ω) :=
  p.runWith (fun ops reg => (environment ops reg, ops ++ [.read reg (environment ops reg)]))
    (fun ops reg value => ops ++ [.write reg value]) ops

/-- What a run adds to the operations before it, by the specification of its program. -/
theorem Prog.wp_perform {m : Monitor ρ ω γ} {g : γ} {post : α → γ → Prop}
    (environment : List (Op ρ ω) → ρ → ω) {p : Prog ρ ω α} (ops : List (Op ρ ω))
    (meets : p.Wp m post g) :
    ∃ more, (p.perform environment ops).2 = ops ++ more ∧ m.Allowed g more ∧
      post (p.perform environment ops).1 (m.after g more) := by
  induction p generalizing ops g with
  | ret value =>
    exact ⟨[], (List.append_nil ops).symm, by simp [Monitor.Allowed], meets⟩
  | read reg next ih =>
    obtain ⟨now, later⟩ := meets (environment ops reg)
    obtain ⟨more, reached, allowed, result⟩ := ih _ (ops ++ [_]) later
    exact ⟨_ :: more, reached.trans (by simp), allowed.cons now, result⟩
  | write reg value next ih =>
    obtain ⟨now, later⟩ := meets
    obtain ⟨more, reached, allowed, result⟩ := ih (ops ++ [_]) later
    exact ⟨_ :: more, reached.trans (by simp), allowed.cons now, result⟩

/-- What a specification promises holds in the run against every environment. -/
theorem Spec.perform {m : Monitor ρ ω γ} {g : γ} {good : α → γ → Prop} {bad : ε → γ → Prop}
    {p : Raising ρ ω ε α} (environment : List (Op ρ ω) → ρ → ω) (meets : Spec m good bad p g) :
    m.Allowed g (p.run.perform environment []).2 ∧
    (∀ value, (p.run.perform environment []).1 = .ok value →
      good value (m.after g (p.run.perform environment []).2)) ∧
    ∀ e, (p.run.perform environment []).1 = .error e →
      bad e (m.after g (p.run.perform environment []).2) := by
  obtain ⟨ops, reached, allowed, result⟩ := Prog.wp_perform environment [] meets
  rw [reached, List.nil_append]
  refine ⟨allowed, fun value returned => ?_, fun e raised => ?_⟩
  · rwa [returned] at result
  · rwa [raised] at result

/-- The history is the operations themselves. -/
def Monitor.record : Monitor ρ ω (List (Op ρ ω)) where
  follow ops o := ops ++ [o]
  allows _ _ := True

theorem Monitor.record_after (ops more : List (Op ρ ω)) : record.after ops more = ops ++ more := by
  induction more generalizing ops with
  | nil => exact (List.append_nil ops).symm
  | cons o more ih => exact (ih (ops ++ [o])).trans (by simp)

theorem Spec.perform_record {good : α → List (Op ρ ω) → Prop} {bad : ε → List (Op ρ ω) → Prop}
    {p : Raising ρ ω ε α} (environment : List (Op ρ ω) → ρ → ω)
    (meets : Spec Monitor.record good bad p []) :
    (∀ value, (p.run.perform environment []).1 = .ok value →
      good value (p.run.perform environment []).2) ∧
    ∀ e, (p.run.perform environment []).1 = .error e →
      bad e (p.run.perform environment []).2 := by
  have promised := (meets.perform environment).2
  rwa [Monitor.record_after, List.nil_append] at promised

end Remote8008.Lib.Interaction
