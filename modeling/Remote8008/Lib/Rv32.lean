import Mathlib.Algebra.Group.Nat.Defs
import Mathlib.Data.List.Basic
import Mathlib.Logic.Function.Basic

/-!
# Programs of a 32-bit RISC-V core

The base instructions of an assembler file, with its pseudo-instructions as they stand
there. Memory is a function of word addresses; an access that is not aligned traps, which
ends the run. A function that is called is a parameter: all that counts is the state it
returns in. The program counter is an index into the program.

`Eventually` is total correctness: the run from a state comes, in finitely many steps and
without a trap, to a state with the postcondition. There is one rule for an instruction,
one for sequencing and one for a loop that counts.
-/

namespace Remote8008.Lib.Rv32

abbrev Word := BitVec 32

inductive Reg where
  | x0 | x1 | x2 | x3 | x4 | x5 | x6 | x7 | x8 | x9 | x10 | x11 | x12 | x13 | x14 | x15
  | x16 | x17 | x18 | x19 | x20 | x21 | x22 | x23 | x24 | x25 | x26 | x27 | x28 | x29 | x30 | x31
  deriving DecidableEq, Repr

namespace Reg

abbrev zero : Reg := x0
abbrev sp : Reg := x2
abbrev a0 : Reg := x10
abbrev a1 : Reg := x11
abbrev a2 : Reg := x12
abbrev a3 : Reg := x13

end Reg

inductive Csr where
  | mtvec | mie
  deriving DecidableEq, Repr

inductive Instr (ν : Type) where
  | nop
  | j (target : Nat)
  | beq (left right : Reg) (target : Nat)
  | lw (rd : Reg) (offset : Int) (base : Reg)
  | sw (rs : Reg) (offset : Int) (base : Reg)
  | addi (rd rs : Reg) (imm : Int)
  /-- `li`, and `la` with the value of its symbol. -/
  | la (rd : Reg) (value : Word)
  | csrw (csr : Csr) (rs : Reg)
  | call (function : ν)
  | mret
  deriving DecidableEq, Repr

structure State where
  pc : Nat
  regs : Reg → Word
  mem : Word → Word
  csrs : Csr → Word

namespace State

/-- `x0` reads as zero. -/
def reg (s : State) (r : Reg) : Word := if r = .x0 then 0 else s.regs r

def setReg (s : State) (r : Reg) (value : Word) : State :=
  { s with regs := Function.update s.regs r value }

def next (s : State) : State := { s with pc := s.pc + 1 }

def store (s : State) (address value : Word) : State :=
  { s with mem := Function.update s.mem address value }

def address (s : State) (offset : Int) (base : Reg) : Word := s.reg base + BitVec.ofInt 32 offset

def aligned (a : Word) : Bool := a.toNat % 4 = 0

end State

variable {ν : Type}

/-- One instruction; `none` is a trap, or the end of the program. -/
def exec (call : ν → State → State) (s : State) : Instr ν → Option State
  | .nop => some s.next
  | .j target => some { s with pc := target }
  | .beq left right target =>
    if s.reg left = s.reg right then some { s with pc := target } else some s.next
  | .lw rd offset base =>
    if State.aligned (s.address offset base) then
      some (s.setReg rd (s.mem (s.address offset base))).next
    else none
  | .sw rs offset base =>
    if State.aligned (s.address offset base) then
      some (s.store (s.address offset base) (s.reg rs)).next
    else none
  | .addi rd rs imm => some (s.setReg rd (s.reg rs + BitVec.ofInt 32 imm)).next
  | .la rd value => some (s.setReg rd value).next
  | .csrw csr rs => some { s with csrs := Function.update s.csrs csr (s.reg rs), pc := s.pc + 1 }
  | .call function => some { call function s with pc := s.pc + 1 }
  | .mret => none

def step (program : List (Instr ν)) (call : ν → State → State) (s : State) : Option State :=
  program[s.pc]?.bind (exec call s)

def run (program : List (Instr ν)) (call : ν → State → State) : Nat → State → Option State
  | 0, s => some s
  | n + 1, s => (step program call s).bind (run program call n)

/-! ## Registers -/

namespace State

@[simp] theorem next_pc (s : State) : s.next.pc = s.pc + 1 := rfl

@[simp] theorem next_reg (s : State) (r : Reg) : s.next.reg r = s.reg r := rfl

@[simp] theorem next_mem (s : State) : s.next.mem = s.mem := rfl

@[simp] theorem next_csrs (s : State) : s.next.csrs = s.csrs := rfl

@[simp] theorem setReg_pc (s : State) (r : Reg) (value : Word) : (s.setReg r value).pc = s.pc := rfl

@[simp] theorem setReg_mem (s : State) (r : Reg) (value : Word) :
    (s.setReg r value).mem = s.mem := rfl

@[simp] theorem setReg_csrs (s : State) (r : Reg) (value : Word) :
    (s.setReg r value).csrs = s.csrs := rfl

@[simp] theorem store_pc (s : State) (a value : Word) : (s.store a value).pc = s.pc := rfl

@[simp] theorem store_reg (s : State) (a value : Word) (r : Reg) :
    (s.store a value).reg r = s.reg r := rfl

@[simp] theorem store_csrs (s : State) (a value : Word) : (s.store a value).csrs = s.csrs := rfl

@[simp] theorem address_zero (s : State) (base : Reg) : s.address 0 base = s.reg base := by
  simp [address]

@[simp] theorem store_mem (s : State) (a value : Word) :
    (s.store a value).mem = Function.update s.mem a value := rfl

theorem reg_setReg (s : State) (r : Reg) (value : Word) (wired : r ≠ .x0) (q : Reg) :
    (s.setReg r value).reg q = if q = r then value else s.reg q := by
  unfold reg setReg
  by_cases same : q = r
  · subst same
    simp [wired]
  · simp [same]

end State

theorem exec_lw {call : ν → State → State} {s : State} {rd base : Reg} {offset : Int}
    (aligned : State.aligned (s.address offset base) = true) :
    exec call s (.lw rd offset base) = some (s.setReg rd (s.mem (s.address offset base))).next := by
  simp only [exec, aligned, ↓reduceIte]

theorem exec_sw {call : ν → State → State} {s : State} {rs base : Reg} {offset : Int}
    (aligned : State.aligned (s.address offset base) = true) :
    exec call s (.sw rs offset base) = some (s.store (s.address offset base) (s.reg rs)).next := by
  simp only [exec, aligned, ↓reduceIte]

/-! ## Total correctness -/

def Eventually (program : List (Instr ν)) (call : ν → State → State) (post : State → Prop)
    (s : State) : Prop :=
  ∃ n t, run program call n s = some t ∧ post t

section
variable {program : List (Instr ν)} {call : ν → State → State} {post mid : State → Prop}
  {s t : State}

theorem Eventually.here (meets : post s) : Eventually program call post s := ⟨0, s, rfl, meets⟩

/-- One instruction. -/
theorem Eventually.next {i : Instr ν} (fetched : program[s.pc]? = some i)
    (effect : exec call s i = some t) (later : Eventually program call post t) :
    Eventually program call post s := by
  obtain ⟨n, u, reached, meets⟩ := later
  refine ⟨n + 1, u, ?_, meets⟩
  rw [run, step, fetched, Option.bind_some, effect, Option.bind_some]
  exact reached

/-- The first instruction of what stands at the program counter. -/
theorem Eventually.first {i : Instr ν} {rest : List (Instr ν)}
    (placed : program.drop s.pc = i :: rest)
    (effect : exec call s i = some t) (later : Eventually program call post t) :
    Eventually program call post s := by
  refine .next ?_ effect later
  rw [← List.head?_drop, placed, List.head?_cons]

theorem drop_succ_of_drop {pc : Nat} {i : Instr ν} {rest : List (Instr ν)}
    (placed : program.drop pc = i :: rest) : program.drop (pc + 1) = rest := by
  rw [← List.tail_drop, placed, List.tail_cons]

theorem run_add (n m : Nat) (s : State) :
    run program call (n + m) s = (run program call n s).bind (run program call m) := by
  induction n generalizing s with
  | zero => rw [Nat.zero_add, run, Option.bind_some]
  | succ n ih =>
    rw [Nat.add_right_comm, run, run]
    cases step program call s with
    | none => rfl
    | some t => exact ih t

/-- Sequencing. -/
theorem Eventually.trans (first : Eventually program call mid s)
    (rest : ∀ t, mid t → Eventually program call post t) : Eventually program call post s := by
  obtain ⟨n, t, reached, halfway⟩ := first
  obtain ⟨m, u, reached', meets⟩ := rest t halfway
  refine ⟨n + m, u, ?_, meets⟩
  rw [run_add, reached, Option.bind_some, reached']

/-- A loop that counts: each round takes the invariant one further. -/
theorem Eventually.count {inv : Nat → State → Prop} (n : Nat)
    (round : ∀ i s, i < n → inv i s → Eventually program call (inv (i + 1)) s)
    (start : inv 0 s) : Eventually program call (inv n) s := by
  induction n with
  | zero => exact .here start
  | succ n ih =>
    have before := ih fun i s below => round i s (Nat.lt_succ_of_lt below)
    exact before.trans fun t reached => round n t (Nat.lt_succ_self n) reached

end

/-! ## Words of memory -/

/-- Memory after `n` words from `src` have been stored at `dst`, each read when its turn
comes. -/
def copyWords (mem : Word → Word) (src dst : Nat) : Nat → Word → Word
  | 0 => mem
  | n + 1 => Function.update (copyWords mem src dst n) (BitVec.ofNat 32 (dst + 4 * n))
      (copyWords mem src dst n (BitVec.ofNat 32 (src + 4 * n)))

/-- Memory after `n` words at `dst` have been set to `value`. -/
def fillWords (mem : Word → Word) (dst : Nat) (value : Word) : Nat → Word → Word
  | 0 => mem
  | n + 1 => Function.update (fillWords mem dst value n) (BitVec.ofNat 32 (dst + 4 * n)) value

/-- An address that is none of the `n` words from `start`. -/
def Outside (start n : Nat) (a : Word) : Prop := a.toNat < start ∨ start + 4 * n ≤ a.toNat

theorem Outside.ne {start n i : Nat} (fits : start + 4 * n ≤ 2 ^ 32) (below : i < n) {a : Word}
    (outside : Outside start n a) : a ≠ BitVec.ofNat 32 (start + 4 * i) := by
  rintro rfl
  have value : (BitVec.ofNat 32 (start + 4 * i)).toNat = start + 4 * i := by
    rw [BitVec.toNat_ofNat]
    exact Nat.mod_eq_of_lt (by omega)
  unfold Outside at outside
  omega

theorem Outside.fewer {start n m : Nat} (le : m ≤ n) {a : Word} (outside : Outside start n a) :
    Outside start m a := by
  unfold Outside at outside ⊢
  omega

theorem outside_ofNat {start n location : Nat} (small : location < 2 ^ 32)
    (outside : location < start ∨ start + 4 * n ≤ location) :
    Outside start n (BitVec.ofNat 32 location) := by
  unfold Outside
  rw [BitVec.toNat_ofNat, Nat.mod_eq_of_lt small]
  exact outside

section
variable (mem : Word → Word) {src dst n : Nat}

theorem copyWords_frame (fits : dst + 4 * n ≤ 2 ^ 32) {a : Word} (outside : Outside dst n a) :
    copyWords mem src dst n a = mem a := by
  induction n with
  | zero => rfl
  | succ n ih =>
    rw [copyWords, Function.update_of_ne (outside.ne fits (Nat.lt_succ_self n))]
    exact ih (by omega) (outside.fewer (Nat.le_succ n))

/-- The words at `dst` are those that were at `src`, if the two do not overlap. -/
theorem copyWords_read (fits : dst + 4 * n ≤ 2 ^ 32) (apart : src + 4 * n ≤ dst) {i : Nat}
    (below : i < n) :
    copyWords mem src dst n (BitVec.ofNat 32 (dst + 4 * i)) =
      mem (BitVec.ofNat 32 (src + 4 * i)) := by
  induction n with
  | zero => omega
  | succ n ih =>
    rcases Nat.lt_or_eq_of_le (Nat.le_of_lt_succ below) with earlier | rfl
    · have outside : Outside (dst + 4 * n) 1 (BitVec.ofNat 32 (dst + 4 * i)) :=
        outside_ofNat (by omega) (by omega)
      have other : BitVec.ofNat 32 (dst + 4 * i) ≠ BitVec.ofNat 32 (dst + 4 * n) :=
        outside.ne (i := 0) (by omega) Nat.zero_lt_one
      rw [copyWords, Function.update_of_ne other]
      exact ih (by omega) (by omega) earlier
    · rw [copyWords, Function.update_self]
      exact copyWords_frame mem (by omega) (outside_ofNat (by omega) (by omega))

theorem fillWords_frame {value : Word} (fits : dst + 4 * n ≤ 2 ^ 32) {a : Word}
    (outside : Outside dst n a) : fillWords mem dst value n a = mem a := by
  induction n with
  | zero => rfl
  | succ n ih =>
    rw [fillWords, Function.update_of_ne (outside.ne fits (Nat.lt_succ_self n))]
    exact ih (by omega) (outside.fewer (Nat.le_succ n))

theorem fillWords_read {value : Word} {i : Nat} (below : i < n) :
    fillWords mem dst value n (BitVec.ofNat 32 (dst + 4 * i)) = value := by
  induction n with
  | zero => omega
  | succ n ih =>
    rw [fillWords]
    by_cases last : BitVec.ofNat 32 (dst + 4 * i) = BitVec.ofNat 32 (dst + 4 * n)
    · rw [last, Function.update_self]
    · rw [Function.update_of_ne last]
      rcases Nat.lt_or_eq_of_le (Nat.le_of_lt_succ below) with earlier | rfl
      · exact ih earlier
      · exact absurd rfl last

end

end Remote8008.Lib.Rv32
