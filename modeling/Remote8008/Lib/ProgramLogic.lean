import Remote8008.Lib.Interaction

/-!
# Specifications of interaction programs

A monitor follows the operations of a program with a history variable and says which
operation it allows next. `Wp` is the weakest precondition of a program under a
monitor: on every path, whatever the words read, each operation is allowed and the
result meets the postcondition in the history reached.
-/

namespace Remote8008.Lib.Interaction

inductive Op (ρ ω : Type) where
  | read (reg : ρ) (word : ω)
  | write (reg : ρ) (value : ω)
  deriving DecidableEq, Repr

structure Monitor (ρ ω γ : Type) where
  follow : γ → Op ρ ω → γ
  allows : γ → Op ρ ω → Prop

variable {ρ ω ρ' ω' γ δ α β : Type}

/-- Where an element of a list that has just grown at its end stands. -/
theorem concat_eq_append_cons {xs before later : List α} {x y : α}
    (split : xs ++ [x] = before ++ y :: later) :
    (xs = before ∧ x = y) ∨ ∃ others, xs = before ++ y :: others := by
  rcases List.eq_nil_or_concat later with rfl | ⟨others, last, rfl⟩
  · exact .inl (by simpa using List.append_inj' split rfl)
  · rw [List.concat_eq_append, ← List.cons_append, ← List.append_assoc] at split
    exact .inr ⟨others, (List.append_inj' split rfl).1⟩

namespace Monitor

/-- The history variable after the operations, oldest first. -/
def after (m : Monitor ρ ω γ) (g : γ) (ops : List (Op ρ ω)) : γ := ops.foldl m.follow g

/-- Each operation was allowed when it was performed. -/
def Allowed (m : Monitor ρ ω γ) (g : γ) (ops : List (Op ρ ω)) : Prop :=
  ∀ before o later, ops = before ++ o :: later → m.allows (m.after g before) o

theorem after_concat (m : Monitor ρ ω γ) (g : γ) (ops : List (Op ρ ω)) (o : Op ρ ω) :
    m.after g (ops ++ [o]) = m.follow (m.after g ops) o := by
  simp [after]

theorem Allowed.concat {m : Monitor ρ ω γ} {g : γ} {ops : List (Op ρ ω)} {o : Op ρ ω}
    (allowed : m.Allowed g ops) (next : m.allows (m.after g ops) o) :
    m.Allowed g (ops ++ [o]) := by
  intro before p later split
  rcases concat_eq_append_cons split with ⟨rfl, rfl⟩ | ⟨others, front⟩
  · exact next
  · exact allowed before p others front

theorem Allowed.cons {m : Monitor ρ ω γ} {g : γ} {ops : List (Op ρ ω)} {o : Op ρ ω}
    (now : m.allows g o) (rest : m.Allowed (m.follow g o) ops) : m.Allowed g (o :: ops) := by
  intro before p later split
  cases before with
  | nil =>
    obtain ⟨rfl, rfl⟩ : o = p ∧ ops = later := by simpa using split
    exact now
  | cons first before =>
    obtain ⟨rfl, others⟩ : o = first ∧ ops = before ++ p :: later := by simpa using split
    exact rest before p later others

/-- Every operation is in `ok`; there is nothing to remember. -/
def only (ok : Op ρ ω → Prop) : Monitor ρ ω Unit where
  follow _ _ := ()
  allows _ o := ok o

end Monitor

namespace Prog

def bind (p : Prog ρ ω α) (f : α → Prog ρ ω β) : Prog ρ ω β :=
  match p with
  | ret value => f value
  | read reg next => read reg fun word => (next word).bind f
  | write reg value next => write reg value (next.bind f)

/-- The same program at other ports, with its words coded as theirs. -/
def relabel (port : ρ → ρ') (encode : ω → ω') (decode : ω' → ω) : Prog ρ ω α → Prog ρ' ω' α
  | ret value => ret value
  | read reg next => read (port reg) fun word => (next (decode word)).relabel port encode decode
  | write reg value next => write (port reg) (encode value) (next.relabel port encode decode)

def Wp (m : Monitor ρ ω γ) (post : α → γ → Prop) : Prog ρ ω α → γ → Prop
  | ret value, g => post value g
  | read reg next, g => ∀ word, m.allows g (.read reg word) ∧
      (next word).Wp m post (m.follow g (.read reg word))
  | write reg value next, g => m.allows g (.write reg value) ∧
      next.Wp m post (m.follow g (.write reg value))

theorem wp_mono {m : Monitor ρ ω γ} {post post' : α → γ → Prop}
    (weaker : ∀ value g, post value g → post' value g) {p : Prog ρ ω α} {g : γ}
    (meets : p.Wp m post g) : p.Wp m post' g := by
  induction p generalizing g with
  | ret value => exact weaker value g meets
  | read reg next ih => exact fun word => ⟨(meets word).1, ih word (meets word).2⟩
  | write reg value next ih => exact ⟨meets.1, ih meets.2⟩

/-- Sequencing: what follows must be safe wherever the first program can end. -/
theorem wp_bind {m : Monitor ρ ω γ} {post : β → γ → Prop} {p : Prog ρ ω α}
    {f : α → Prog ρ ω β} {g : γ} (meets : p.Wp m (fun value g' => (f value).Wp m post g') g) :
    (p.bind f).Wp m post g := by
  induction p generalizing g with
  | ret value => exact meets
  | read reg next ih => exact fun word => ⟨(meets word).1, ih word (meets word).2⟩
  | write reg value next ih => exact ⟨meets.1, ih meets.2⟩

/-- A program that keeps to one monitor keeps to every monitor that simulates it. -/
theorem wp_transfer {m : Monitor ρ ω γ} {m' : Monitor ρ ω δ} (rel : γ → δ → Prop)
    (simulates : ∀ g h o, m.allows g o → rel g h →
      m'.allows h o ∧ rel (m.follow g o) (m'.follow h o))
    {post : α → γ → Prop} {p : Prog ρ ω α} {g : γ} {h : δ} (related : rel g h)
    (meets : p.Wp m post g) : p.Wp m' (fun value h' => ∃ g', rel g' h' ∧ post value g') h := by
  induction p generalizing g h with
  | ret value => exact ⟨g, related, meets⟩
  | read reg next ih =>
    intro word
    obtain ⟨allowed, later⟩ := simulates g h _ (meets word).1 related
    exact ⟨allowed, ih word later (meets word).2⟩
  | write reg value next ih =>
    obtain ⟨allowed, later⟩ := simulates g h _ meets.1 related
    exact ⟨allowed, ih later meets.2⟩

end Prog

end Remote8008.Lib.Interaction
