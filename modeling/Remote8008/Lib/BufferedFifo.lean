import Mathlib.Data.List.Basic

/-!
# A FIFO with a registered output word

An inner FIFO of `depth` words refills a one-word output register. The inner
FIFO alone decides whether a word can be written and has a read latency of one
clock, so the whole holds `depth + 1` words, and a word written into the empty
FIFO is counted one clock before it can be read. The bound on the inner FIFO is
carried by the type.

The inner FIFO is a memory, which takes two words or more: below a `depth` of two a
generator of hardware may build a bare register instead, with another occupancy.
-/

namespace Remote8008.Lib.BufferedFifo

structure Fifo (α : Type*) (depth : Nat) where
  inner : List α
  out : Option α
  fits : inner.length ≤ depth

variable {α : Type*} {depth : Nat}

namespace Fifo

def empty : Fifo α depth := ⟨[], none, Nat.zero_le _⟩

/-- Room in the inner FIFO; the output register plays no part in it. -/
def writable (f : Fifo α depth) : Bool := decide (f.inner.length ≠ depth)

def readable (f : Fifo α depth) : Bool := f.out.isSome

/-- Occupancy of both stages. -/
def level (f : Fifo α depth) : Nat := f.inner.length + f.readable.toNat

/-- Words in the order in which they leave. -/
def held (f : Fifo α depth) : List α := f.out.toList ++ f.inner

/-- Enable of the inner read port: the register is free, or is being emptied. -/
def refill (f : Fifo α depth) (re : Bool) : Bool :=
  !f.inner.isEmpty && (!f.readable || re)

/-- The presented word, when the inner FIFO takes it. -/
def stored (f : Fifo α depth) (we : Option α) : List α :=
  if f.writable then we.toList else []

/-- The word that leaves the output register. -/
def taken (f : Fifo α depth) (re : Bool) : List α :=
  if re then f.out.toList else []

theorem stored_length_le (f : Fifo α depth) (we : Option α) : (f.stored we).length ≤ 1 := by
  unfold stored
  split
  · cases we <;> simp
  · simp

theorem refilled_fits (f : Fifo α depth) (we : Option α) (re : Bool) :
    ((if f.refill re then f.inner.tail else f.inner) ++ f.stored we).length ≤ depth := by
  have hfits := f.fits
  have hone := f.stored_length_le we
  have htail : (if f.refill re then f.inner.tail else f.inner).length ≤ f.inner.length := by
    split
    · simp
    · exact Nat.le_refl _
  rw [List.length_append]
  by_cases hw : f.inner.length = depth
  · have hnone : f.stored we = [] := by simp [stored, writable, hw]
    simp only [hnone, List.length_nil]
    omega
  · omega

/-- One clock edge. -/
def step (f : Fifo α depth) (we : Option α) (re : Bool) : Fifo α depth where
  inner := (if f.refill re then f.inner.tail else f.inner) ++ f.stored we
  out := if f.refill re then f.inner.head? else if re then none else f.out
  fits := f.refilled_fits we re

@[simp] theorem level_empty : (empty : Fifo α depth).level = 0 := rfl

theorem level_eq_held_length (f : Fifo α depth) : f.level = f.held.length := by
  cases hout : f.out <;> simp [level, held, readable, hout]

theorem inner_le_level (f : Fifo α depth) : f.inner.length ≤ f.level := Nat.le_add_right _ _

theorem writable_of_level_lt (f : Fifo α depth) (room : f.level < depth) :
    f.writable = true := by
  have hle := f.inner_le_level
  simp only [writable, decide_eq_true_eq]
  omega

theorem stored_of_writable (f : Fifo α depth) (we : Option α) (room : f.writable = true) :
    f.stored we = we.toList := by
  simp [stored, room]

/-- No word is lost, duplicated or reordered by an edge, whatever the alignment
of the write, the read and the refill. -/
theorem step_conserves (f : Fifo α depth) (we : Option α) (re : Bool) :
    f.held ++ f.stored we = f.taken re ++ (f.step we re).held := by
  -- the register word and the head of the inner FIFO decide which stage moves
  obtain ⟨inner, out, fits⟩ := f
  cases inner with
  | nil => cases out <;> cases re <;> simp [held, taken, step, refill, readable]
  | cons head rest => cases out <;> cases re <;> simp [held, taken, step, refill, readable]

theorem step_level (f : Fifo α depth) (we : Option α) (re : Bool) :
    (f.step we re).level + (f.taken re).length = f.level + (f.stored we).length := by
  have balance := congrArg List.length (f.step_conserves we re)
  simp only [List.length_append] at balance
  rw [level_eq_held_length, level_eq_held_length]
  omega

theorem stored_length_le_toList (f : Fifo α depth) (we : Option α) :
    (f.stored we).length ≤ we.toList.length := by
  unfold stored
  split <;> simp

theorem step_level_le (f : Fifo α depth) (we : Option α) (re : Bool) :
    (f.step we re).level ≤ f.level + we.toList.length := by
  have balance := f.step_level we re
  have hstored := f.stored_length_le_toList we
  omega

theorem level_le (f : Fifo α depth) : f.level ≤ depth + 1 :=
  Nat.add_le_add f.fits f.readable.toNat_le

theorem taken_length_le (f : Fifo α depth) (re : Bool) : (f.taken re).length ≤ 1 := by
  unfold taken
  split
  · cases f.out <;> simp
  · simp

/-- The output register is empty only while the inner FIFO holds at most the word that
has just been written. -/
def Primed (f : Fifo α depth) : Prop := f.readable = false → f.inner.length ≤ 1

theorem empty_primed : (empty : Fifo α depth).Primed := fun _ => Nat.zero_le 1

theorem step_primed (f : Fifo α depth) (we : Option α) (re : Bool) : (f.step we re).Primed := by
  have one := f.stored_length_le we
  obtain ⟨inner, out, fits⟩ := f
  cases inner with
  | nil => simpa [Primed, step, refill] using fun _ => one
  | cons head rest => cases out <;> cases re <;> simp [Primed, step, refill, readable]

theorem Primed.readable {f : Fifo α depth} (primed : f.Primed) (more : 2 ≤ f.level) :
    f.readable = true := by
  by_contra none
  rw [Bool.not_eq_true] at none
  have few := primed none
  simp only [level, none, Bool.toNat_false] at more
  omega

/-- A register in front of a word that waits is full after any edge. -/
theorem step_readable {f : Fifo α depth} (full : f.readable = true) (more : 2 ≤ f.level)
    (we : Option α) (re : Bool) : (f.step we re).readable = true := by
  obtain ⟨inner, out, fits⟩ := f
  cases inner with
  | nil =>
    simp only [level, full, List.length_nil, Bool.toNat_true] at more
    omega
  | cons head rest =>
    cases out with
    | none => cases full
    | some word => cases re <;> simp [step, refill, readable]

/-! ## The queue a reader sees -/

/-- Nothing is visible while the output register is empty. -/
def visible (f : Fifo α depth) : List α := if f.readable then f.held else []

/-- Words that wait for the register to refill. -/
def hidden (f : Fifo α depth) : List α := if f.readable then [] else f.held

/-- Seen from the register, an edge drops the word taken and lets words in, in
the order in which they were stored. -/
theorem step_visible (f : Fifo α depth) (we : Option α) (re : Bool) :
    ∃ arriving, (f.step we re).visible = (if re then f.visible.tail else f.visible) ++ arriving ∧
      f.hidden ++ f.stored we = arriving ++ (f.step we re).hidden := by
  obtain ⟨inner, out, fits⟩ := f
  cases inner with
  | nil =>
    cases out <;> cases re <;> simp [visible, hidden, held, step, refill, readable]
  | cons head rest =>
    cases out <;> cases re <;> simp [visible, hidden, held, step, refill, readable]

end Fifo

end Remote8008.Lib.BufferedFifo
