import Mathlib.Data.List.Basic
import Remote8008.Guarantees.AutoStart

/-!
# The bootstrap interrupt is jammed once for each reset

src/b8008_net_core.vhdl:332-353. The process advances at the rising edges of `phi2` only,
and `reset_int` starts it over. Its registers are a function of the rising edges since
the last clock with `reset_int`: the interrupt is up from the first of them to the first
that the process takes for the acknowledge, and never again until the next reset. The
counter of the edges has eight bits and wraps, so the acknowledge is looked for in 240 of
every 256 edges and not in the 16 before them.
-/

namespace Remote8008.Guarantees.BootstrapJam
open Lib.Stopwatch Source.NetCore AutoStart

/-! ## The rising edges since the last reset -/

/-- `reset_int` in the clock that edge `t` ends. -/
def resetAt (wave : Nat → Cycle) (t : Nat) : Bool := (coreAt wave t).resetInt (wave t)

/-- `phi2` before edge `t`; the register that samples it starts at zero. -/
def phi2Before (wave : Nat → Cycle) : Nat → Bool
  | 0 => false
  | t + 1 => (wave t).phi2

def rises (wave : Nat → Cycle) (t : Nat) : Bool := (wave t).phi2 && !phi2Before wave t

/-- The rising edges of `phi2` after the last edge with `reset_int` among the first `t`. -/
def edges (wave : Nat → Cycle) : Nat → List Cycle
  | 0 => []
  | t + 1 =>
    if resetAt wave t then []
    else if rises wave t then edges wave t ++ [wave t]
    else edges wave t

/-- The CPU acknowledges an interrupt. -/
def t1i (c : Cycle) : Bool := c.s2 && c.s1 && !c.s0 && c.sync

/-- The process looks at rising edge `n` since the reset, by its eight bits. -/
def Looks (n : Nat) : Prop := 16 ≤ n % 256

/-- An acknowledge came at an edge the process looks at. -/
def Acknowledged (es : List Cycle) : Prop := ∃ n c, es[n]? = some c ∧ Looks n ∧ t1i c = true

theorem not_acknowledged_nil : ¬ Acknowledged [] := by
  rintro ⟨n, c, place, -⟩
  simp at place

theorem acknowledged_concat (es : List Cycle) (c : Cycle) :
    Acknowledged (es ++ [c]) ↔ Acknowledged es ∨ (Looks es.length ∧ t1i c = true) := by
  constructor
  · rintro ⟨n, d, place, looks, acknowledge⟩
    rcases Nat.lt_or_ge n es.length with old | new
    · rw [List.getElem?_append_left old] at place
      exact .inl ⟨n, d, place, looks, acknowledge⟩
    · obtain ⟨last, rfl⟩ : n = es.length ∧ c = d := by
        rw [List.getElem?_append_right new, List.getElem?_singleton] at place
        split at place
        · exact ⟨by omega, Option.some.inj place⟩
        · cases place
      exact .inr ⟨last ▸ looks, acknowledge⟩
  · rintro (⟨n, d, place, looks, acknowledge⟩ | ⟨looks, acknowledge⟩)
    · exact ⟨n, d, List.getElem?_append_left (List.getElem?_eq_some_iff.mp place).1 ▸ place, looks,
        acknowledge⟩
    · exact ⟨es.length, c, by simp, looks, acknowledge⟩

/-! ## The registers as a function of the edges -/

structure Tracks (es : List Cycle) (before : Bool) (b : Bootstrap) : Prop where
  phi2Prev : b.phi2Prev = before
  done : b.done = true ↔ Acknowledged es
  int : b.int = true ↔ es ≠ [] ∧ ¬ Acknowledged es
  -- the counter stops with the acknowledge
  counter : b.done = false → b.counter.toNat = es.length % 256

theorem tracks_reset (b : Bootstrap) (c : Cycle) : Tracks [] c.phi2 (b.step true c) where
  phi2Prev := rfl
  done := iff_of_false Bool.false_ne_true not_acknowledged_nil
  int := iff_of_false Bool.false_ne_true fun up => up.1 rfl
  counter _ := rfl

theorem step_rise (b : Bootstrap) {c : Cycle} (rising : (c.phi2 && !b.phi2Prev && !b.done) = true) :
    b.step false c = if b.counter ≥ 16 ∧ t1i c = true then ⟨c.phi2, false, true, b.counter + 1⟩
      else ⟨c.phi2, true, b.done, b.counter + 1⟩ := by
  rw [Bootstrap.step, if_neg Bool.false_ne_true, if_pos rising]
  rfl

section
variable {es : List Cycle} {before : Bool} {b : Bootstrap}

theorem Tracks.idle (tracks : Tracks es before b) {c : Cycle}
    (level : (c.phi2 && !before) = false) : Tracks es c.phi2 (b.step false c) := by
  have same : b.step false c = { b with phi2Prev := c.phi2 } := by
    rw [Bootstrap.step, if_neg Bool.false_ne_true, tracks.phi2Prev, level]
    rfl
  rw [same]
  exact ⟨rfl, tracks.done, tracks.int, tracks.counter⟩

theorem Tracks.looks_iff (tracks : Tracks es before b) (waiting : b.done = false) :
    b.counter ≥ 16 ↔ Looks es.length := by
  rw [ge_iff_le, BitVec.le_def, tracks.counter waiting]
  rfl

theorem Tracks.rise (tracks : Tracks es before b) {c : Cycle}
    (rising : (c.phi2 && !before) = true) :
    Tracks (es ++ [c]) c.phi2 (b.step false c) := by
  cases finished : b.done with
  | true =>
    have same : b.step false c = { b with phi2Prev := c.phi2 } := by
      rw [Bootstrap.step, if_neg Bool.false_ne_true, finished]
      simp
    have seen : Acknowledged (es ++ [c]) :=
      (acknowledged_concat es c).mpr (.inl (tracks.done.mp finished))
    have down : ¬ b.int = true := fun up => (tracks.int.mp up).2 (tracks.done.mp finished)
    rw [same]
    refine ⟨rfl, iff_of_true finished seen, iff_of_false down fun up => up.2 seen,
      fun waiting => ?_⟩
    exact absurd (finished.symm.trans waiting) (by decide)
  | false =>
    have unseen : ¬ Acknowledged es := fun seen =>
      absurd (finished.symm.trans (tracks.done.mpr seen)) (by decide)
    have counted : (b.counter + 1).toNat = (es ++ [c]).length % 256 := by
      rw [BitVec.toNat_add, tracks.counter finished, List.length_append, List.length_singleton]
      exact Nat.mod_add_mod _ _ _
    have guard : (c.phi2 && !b.phi2Prev && !b.done) = true := by
      rw [tracks.phi2Prev, rising, finished]
      rfl
    have growing : es ++ [c] ≠ [] := by simp
    have grown := acknowledged_concat es c
    rw [or_iff_right unseen] at grown
    rw [step_rise b guard]
    by_cases taken : b.counter ≥ 16 ∧ t1i c = true
    · have seen := grown.mpr ⟨(tracks.looks_iff finished).mp taken.1, taken.2⟩
      rw [if_pos taken]
      exact ⟨rfl, iff_of_true rfl seen, iff_of_false Bool.false_ne_true fun up => up.2 seen,
        fun _ => counted⟩
    · have missed : ¬ Acknowledged (es ++ [c]) := fun seen =>
        taken ⟨(tracks.looks_iff finished).mpr (grown.mp seen).1, (grown.mp seen).2⟩
      rw [if_neg taken]
      refine ⟨rfl, iff_of_false ?_ missed, iff_of_true rfl ⟨growing, missed⟩, fun _ => counted⟩
      exact fun done => absurd (finished.symm.trans done) (by decide)

end

theorem coreAt_tracks (wave : Nat → Cycle) (t : Nat) :
    Tracks (edges wave t) (phi2Before wave t) (coreAt wave t).bootstrap := by
  induction t with
  | zero =>
    exact ⟨rfl, iff_of_false Bool.false_ne_true not_acknowledged_nil,
      iff_of_false Bool.false_ne_true fun up => up.1 rfl, fun _ => rfl⟩
  | succ t ih =>
    have next : (coreAt wave (t + 1)).bootstrap =
        (coreAt wave t).bootstrap.step (resetAt wave t) (wave t) := by
      rw [coreAt, stateAt_succ]
      rfl
    rw [next, edges]
    cases reset : resetAt wave t with
    | true => exact tracks_reset _ _
    | false =>
      cases rising : rises wave t with
      | true => exact ih.rise rising
      | false => exact ih.idle rising

/-- Between resets edges are only added, so an acknowledge stays. -/
theorem acknowledged_stays {wave : Nat → Cycle} {t : Nat} (k : Nat)
    (seen : Acknowledged (edges wave t))
    (calm : ∀ i, t ≤ i → i < t + k → resetAt wave i = false) :
    Acknowledged (edges wave (t + k)) := by
  induction k with
  | zero => exact seen
  | succ k ih =>
    have earlier := ih fun i low high => calm i low (by omega)
    rw [← Nat.add_assoc, edges, calm (t + k) (by omega) (by omega), if_neg Bool.false_ne_true]
    split
    · exact (acknowledged_concat _ _).mpr (.inl earlier)
    · exact earlier

/-- For every waveform and at every clock: `bootstrap_done` tells whether an acknowledge
came at one of the rising edges of `phi2` since the last reset that the process looks at;
`bootstrap_int` is up exactly from the first rising edge to that acknowledge; and once it
has been acknowledged it stays down until `reset_int`, whatever the CPU does. -/
theorem jammed_once_per_reset (wave : Nat → Cycle) (t : Nat) :
    ((coreAt wave t).bootstrap.done = true ↔ Acknowledged (edges wave t)) ∧
    ((coreAt wave t).bootstrap.int = true ↔
      edges wave t ≠ [] ∧ ¬ Acknowledged (edges wave t)) ∧
    ((coreAt wave t).bootstrap.done = true → ∀ k,
      (∀ i, t ≤ i → i < t + k → resetAt wave i = false) →
      (coreAt wave (t + k)).bootstrap.int = false) := by
  have tracks := coreAt_tracks wave t
  refine ⟨tracks.done, tracks.int, fun done k calm => ?_⟩
  have seen := acknowledged_stays k (tracks.done.mp done) calm
  cases up : (coreAt wave (t + k)).bootstrap.int with
  | false => rfl
  | true => exact absurd seen ((coreAt_tracks wave (t + k)).int.mp up).2

end Remote8008.Guarantees.BootstrapJam
