import Mathlib.Algebra.Group.Int.Defs
import Remote8008.Source.Crt0

/-!
# A trap leaves the interrupted code as it found it

firmware/crt0.S:22-58. The handler stores the registers its call of `isr` may change in
sixteen words below the stack pointer and loads them again afterwards. The stores are made
before the stack pointer moves and the loads after it has moved, so the two lists of
offsets have to name the same words.
-/

namespace Remote8008.Guarantees.TrapFrame
open Lib.Rv32 Source.Crt0

/-- What `isr` may change, in the order of the file. -/
def savedRegs : List Reg :=
  [.x1, .x5, .x6, .x7, .x10, .x11, .x12, .x13, .x14, .x15, .x16, .x17, .x28, .x29, .x30, .x31]

/-- What the calling convention makes `isr` keep. -/
def keptRegs : List Reg :=
  [.sp, .x3, .x4, .x8, .x9, .x18, .x19, .x20, .x21, .x22, .x23, .x24, .x25, .x26, .x27]

theorem saved_or_kept (r : Reg) : r ∈ savedRegs ∨ r ∈ keptRegs ∨ r = .x0 := by
  cases r <;> decide

/-- `sw` of each register, from word `k` below the stack pointer down. -/
def saves (k : Nat) : List Reg → List (Instr Function)
  | [] => []
  | r :: rs => .sw r (-(4 * (k + 1))) .sp :: saves (k + 1) rs

/-- `lw` of each register, the last from the word at the stack pointer. -/
def restores : List Reg → List (Instr Function)
  | [] => []
  | r :: rs => .lw r (4 * rs.length) .sp :: restores rs

theorem trapEntry_eq (sym : Symbols) : (program sym).drop trapEntry =
    saves 0 savedRegs ++ (.addi .sp .sp (-(4 * 16)) :: .call .isr :: (restores savedRegs ++
      (.addi .sp .sp (4 * 16) :: (program sym).drop trapReturn))) := rfl

/-! ## Words at an offset -/

theorem offset_inj {sp : Word} {left right : Int} (small : -2 ^ 31 ≤ left ∧ left < 2 ^ 31)
    (small' : -2 ^ 31 ≤ right ∧ right < 2 ^ 31)
    (same : sp + BitVec.ofInt 32 left = sp + BitVec.ofInt 32 right) : left = right := by
  have offsets := congrArg BitVec.toInt ((BitVec.add_right_inj sp).mp same)
  rw [BitVec.toInt_ofInt, BitVec.toInt_ofInt] at offsets
  simp only [Int.bmod_def] at offsets
  omega

theorem aligned_offset {sp : Word} (aligned : State.aligned sp = true) {offset : Int}
    (words : offset % 4 = 0) : State.aligned (sp + BitVec.ofInt 32 offset) = true := by
  simp only [State.aligned, decide_eq_true_eq] at aligned ⊢
  rw [BitVec.toNat_add, BitVec.toNat_ofInt]
  omega

/-- Memory with the registers `rs` stored from word `k` below `sp` down. -/
def spilled (mem : Word → Word) (sp : Word) (value : Reg → Word) : Nat → List Reg → Word → Word
  | _, [] => mem
  | k, r :: rs =>
    spilled (Function.update mem (sp + BitVec.ofInt 32 (-(4 * (k + 1)))) (value r)) sp value
      (k + 1) rs

/-- The words at `sp` hold the values of `rs`, the last at `sp` itself. -/
def Holds (mem : Word → Word) (sp : Word) (value : Reg → Word) : List Reg → Prop
  | [] => True
  | r :: rs => mem (sp + BitVec.ofInt 32 (4 * rs.length)) = value r ∧ Holds mem sp value rs

/-- A word above the `k` words below `sp` that have been used, or below the `n` in use. -/
theorem spilled_frame {mem : Word → Word} {sp : Word} {value : Reg → Word} (rs : List Reg)
    {k : Nat} {a : Word}
    (outside : ∀ i, k ≤ i → i < k + rs.length → a ≠ sp + BitVec.ofInt 32 (-(4 * (i + 1)))) :
    spilled mem sp value k rs a = mem a := by
  induction rs generalizing mem k with
  | nil => rfl
  | cons r rs ih =>
    rw [spilled, ih fun i low high => outside i (by omega) (by rw [List.length_cons]; omega)]
    exact Function.update_of_ne (outside k (Nat.le_refl k) (by rw [List.length_cons]; omega)) _ _

theorem spilled_holds (mem : Word → Word) (sp : Word) (value : Reg → Word) (rs : List Reg)
    {k n : Nat} (total : k + rs.length = n) (few : n ≤ 2 ^ 16) :
    Holds (spilled mem sp value k rs) (sp + BitVec.ofInt 32 (-(4 * n))) value rs := by
  induction rs generalizing mem k with
  | nil => trivial
  | cons r rs ih =>
    rw [List.length_cons] at total
    refine ⟨?_, ih _ (by omega)⟩
    have same : sp + BitVec.ofInt 32 (-(4 * n)) + BitVec.ofInt 32 (4 * rs.length) =
        sp + BitVec.ofInt 32 (-(4 * (k + 1))) := by
      rw [BitVec.add_assoc, ← BitVec.ofInt_add]
      congr 2
      omega
    rw [same, spilled, spilled_frame rs fun i low high equal => ?_, Function.update_self]
    have := offset_inj (by omega) (by omega) equal
    omega

theorem Holds.congr {mem mem' : Word → Word} {sp : Word} {value : Reg → Word} {rs : List Reg}
    (holds : Holds mem sp value rs)
    (same : ∀ i < rs.length,
      mem' (sp + BitVec.ofInt 32 (4 * i)) = mem (sp + BitVec.ofInt 32 (4 * i))) :
    Holds mem' sp value rs := by
  induction rs with
  | nil => trivial
  | cons r rs ih =>
    refine ⟨?_, ih holds.2 fun i below => same i (by rw [List.length_cons]; omega)⟩
    rw [same rs.length (by rw [List.length_cons]; omega)]
    exact holds.1

/-! ## The handler -/

section
variable {code rest : List (Instr Function)} {call : Function → State → State}

theorem saves_run (rs : List Reg) {k : Nat} {s : State}
    (placed : code.drop s.pc = saves k rs ++ rest)
    (aligned : State.aligned (s.reg .sp) = true) :
    Eventually code call (fun t => t.pc = s.pc + rs.length ∧ t.regs = s.regs ∧ t.csrs = s.csrs ∧
      t.mem = spilled s.mem (s.reg .sp) s.reg k rs) s := by
  induction rs generalizing s k with
  | nil => exact .here ⟨rfl, rfl, rfl, rfl⟩
  | cons r rs ih =>
    have target : State.aligned (s.address (-(4 * (k + 1))) .sp) = true :=
      aligned_offset aligned (by omega)
    have first : code.drop s.pc = .sw r (-(4 * (k + 1))) .sp :: (saves (k + 1) rs ++ rest) := placed
    let stored := (s.store (s.address (-(4 * (k + 1))) .sp) (s.reg r)).next
    have later : code.drop stored.pc = saves (k + 1) rs ++ rest := drop_succ_of_drop first
    refine .first first (exec_sw target) ?_
    refine (ih later aligned).trans fun t reached => .here ?_
    obtain ⟨pc, regs, csrs, mem⟩ := reached
    refine ⟨?_, regs, csrs, ?_⟩
    · rw [pc, List.length_cons, State.next_pc, State.store_pc]
      omega
    · have same : stored.reg = s.reg := by
        funext q
        rw [State.reg, State.reg]
        rfl
      rw [mem, same, spilled, State.next_mem, State.store_mem, State.address]

theorem restores_run (rs : List Reg) {value : Reg → Word} {s : State}
    (placed : code.drop s.pc = restores rs ++ rest) (aligned : State.aligned (s.reg .sp) = true)
    (plain : ∀ r ∈ rs, r ≠ .sp ∧ r ≠ .x0) (holds : Holds s.mem (s.reg .sp) value rs) :
    Eventually code call (fun t => t.pc = s.pc + rs.length ∧ t.mem = s.mem ∧ t.csrs = s.csrs ∧
      (∀ r ∈ rs, t.reg r = value r) ∧ ∀ r ∉ rs, t.reg r = s.reg r) s := by
  induction rs generalizing s with
  | nil => exact .here ⟨rfl, rfl, rfl, by simp, fun _ _ => rfl⟩
  | cons r rs ih =>
    obtain ⟨other, wired⟩ := plain r List.mem_cons_self
    have source : State.aligned (s.address (4 * rs.length) .sp) = true :=
      aligned_offset aligned (by omega)
    have loaded : ∀ q, (s.setReg r (value r)).next.reg q = if q = r then value r else s.reg q :=
      fun q => s.reg_setReg r (value r) wired q
    have stack : (s.setReg r (value r)).next.reg .sp = s.reg .sp := by
      rw [loaded, if_neg (Ne.symm other)]
    have effect : exec call s (.lw r (4 * rs.length) .sp) = some (s.setReg r (value r)).next := by
      rw [← holds.1]
      exact exec_lw source
    have next : code.drop (s.setReg r (value r)).next.pc = restores rs ++ rest :=
      drop_succ_of_drop placed
    refine .first placed effect ?_
    refine (ih next (by rwa [stack])
      (fun q member => plain q (List.mem_cons_of_mem r member))
      (by rw [stack]; exact holds.2)).trans fun t reached => .here ?_
    obtain ⟨pc, mem, csrs, inside, outside⟩ := reached
    refine ⟨?_, mem, csrs, fun q member => ?_, fun q absent => ?_⟩
    · rw [pc, List.length_cons, State.next_pc, State.setReg_pc]
      omega
    · by_cases later : q ∈ rs
      · exact inside q later
      · obtain rfl : q = r := (List.mem_cons.mp member).resolve_right later
        rw [outside q later, loaded, if_pos rfl]
    · obtain ⟨different, later⟩ := not_or.mp (mt List.mem_cons.mpr absent)
      rw [outside q later, loaded, if_neg different]

end

/-- The calling convention, as far as the handler relies on it: the kept registers, and the
words of the caller's frame. -/
structure Abi (before after : State) : Prop where
  regs : ∀ r ∈ keptRegs, after.reg r = before.reg r
  frame : ∀ i : Nat, i < 16 → after.mem (before.reg .sp + BitVec.ofInt 32 (4 * i)) =
    before.mem (before.reg .sp + BitVec.ofInt 32 (4 * i))

/-! The places of the handler behind the saves: the stack pointer is lowered, `isr` is
called, the registers are restored and the stack pointer is raised again. -/

def lowersStack : Nat := trapEntry + savedRegs.length
def callsIsr : Nat := lowersStack + 1
def restoresRegs : Nat := callsIsr + 1
def raisesStack : Nat := restoresRegs + savedRegs.length

/-- The state in which the handler calls `isr`. -/
def callIsr (s : State) : State where
  pc := callsIsr
  regs := Function.update s.regs .sp (s.reg .sp + BitVec.ofInt 32 (-(4 * 16)))
  mem := spilled s.mem (s.reg .sp) s.reg 0 savedRegs
  csrs := s.csrs

theorem callIsr_mem (s : State) :
    (callIsr s).mem = spilled s.mem (s.reg .sp) s.reg 0 savedRegs := by
  rw [callIsr]

theorem callIsr_reg (s : State) (r : Reg) : (callIsr s).reg r =
    if r = .sp then s.reg .sp + BitVec.ofInt 32 (-(4 * 16)) else s.reg r :=
  s.reg_setReg .sp _ (by decide) r

/-- For every state at a trap with an aligned stack pointer, and every `isr` that keeps to
the calling convention: `isr` is called on memory that differs from the interrupted one in
the sixteen words below the stack only, and the handler comes to its `mret` with every
register as it was and the memory as `isr` left it. -/
theorem trap_restores_registers (sym : Symbols) (call : Function → State → State)
    (s : State) (abi : Abi (callIsr s) (call .isr (callIsr s))) (entered : s.pc = trapEntry)
    (aligned : State.aligned (s.reg .sp) = true) :
    (∀ a, (∀ i : Nat, i < 16 → a ≠ s.reg .sp + BitVec.ofInt 32 (-(4 * (i + 1)))) →
      (callIsr s).mem a = s.mem a) ∧
    (∀ r, r ≠ .sp → (callIsr s).reg r = s.reg r) ∧
    Eventually (program sym) call (fun t => t.pc = trapReturn ∧ (∀ r, t.reg r = s.reg r) ∧
      t.mem = (call .isr (callIsr s)).mem ∧ t.csrs = (call .isr (callIsr s)).csrs) s := by
  have placed : (program sym).drop s.pc = saves 0 savedRegs ++ _ := entered ▸ trapEntry_eq sym
  have frame : ∀ a, (∀ i : Nat, i < 16 → a ≠ s.reg .sp + BitVec.ofInt 32 (-(4 * (i + 1)))) →
      spilled s.mem (s.reg .sp) s.reg 0 savedRegs a = s.mem a := by
    intro a outside
    exact spilled_frame savedRegs fun i _ below => outside i (by simpa [savedRegs] using below)
  refine ⟨frame, fun r other => by rw [callIsr_reg, if_neg other], ?_⟩
  refine (saves_run savedRegs placed aligned).trans fun t saved => ?_
  obtain ⟨pc, regs, csrs, mem⟩ := saved
  have here : t.pc = lowersStack := by rw [pc, entered]; rfl
  have same : t.reg = s.reg := by
    funext r
    rw [State.reg, State.reg, regs]
  have lowered : (t.setReg .sp (t.reg .sp + BitVec.ofInt 32 (-(4 * 16)))).next = callIsr s := by
    rw [callIsr, callsIsr, State.next, State.setReg, here, same, regs, csrs, mem]
  let back : State := { call .isr (callIsr s) with pc := restoresRegs }
  have kept : ∀ r, back.reg r = (call .isr (callIsr s)).reg r := fun _ => rfl
  have stack : back.reg .sp = s.reg .sp + BitVec.ofInt 32 (-(4 * 16)) := by
    rw [kept, abi.regs .sp (by decide), callIsr_reg, if_pos rfl]
  have held := spilled_holds s.mem (s.reg .sp) s.reg savedRegs (Nat.zero_add _) (by decide)
  have holds : Holds back.mem (back.reg .sp) s.reg savedRegs := by
    rw [stack]
    rw [← callIsr_mem] at held
    refine held.congr fun i below => ?_
    have word := abi.frame i below
    rwa [callIsr_reg, if_pos rfl] at word
  -- the stack pointer moves, and `isr` returns
  refine .first (i := .addi .sp .sp (-(4 * 16))) (by rw [here]; rfl) (congrArg some lowered) ?_
  refine .first (i := .call .isr) (t := back) rfl rfl ?_
  refine (restores_run savedRegs (s := back) rfl (by rw [stack]; exact aligned_offset aligned rfl)
    (by decide) holds).trans fun u restored => ?_
  obtain ⟨upc, umem, ucsrs, inside, outside⟩ := restored
  have end' : u.pc = raisesStack := upc
  refine .first (i := .addi .sp .sp (4 * 16)) (by rw [end']; rfl) rfl (.here ?_)
  refine ⟨by rw [State.next_pc, State.setReg_pc, end']; rfl, fun r => ?_, umem, ucsrs⟩
  rw [State.next_reg, State.reg_setReg _ _ _ (by decide)]
  split
  next same =>
    rw [outside .sp (by decide), stack, same, BitVec.add_assoc, ← BitVec.ofInt_add]
    simp
  next other =>
    rcases saved_or_kept r with saved | keeps | rfl
    · exact inside r saved
    · rw [outside r (by revert keeps; cases r <;> decide), kept, abi.regs r keeps, callIsr_reg,
        if_neg other]
    · rfl

/-- Code interrupted with the stack pointer at the top of SRAM. -/
def interrupted : State where
  pc := trapEntry
  regs := fun r => if r = .sp then 0x10002000 else 7
  mem := fun a => a
  csrs := fun _ => 0

/-- An `isr` that leaves 99 in `a0`. -/
def clobber (_ : Function) (s : State) : State := s.setReg .a0 99

theorem clobber_abi (s : State) : Abi s (clobber .isr s) where
  regs r keeps := by
    rw [clobber, State.reg_setReg _ _ _ (by decide), if_neg]
    rintro rfl
    exact absurd keeps (by decide)
  frame _ _ := rfl

theorem interrupted_restores_registers :
    State.aligned (interrupted.reg .sp) = true ∧
    Eventually (program ⟨0x10000000, 0x10000010, 0x10000010, 0x10000020, 0x10002000, 0x4000⟩)
      clobber (fun t => t.pc = trapReturn ∧ (∀ r, t.reg r = interrupted.reg r) ∧
        t.mem = (clobber .isr (callIsr interrupted)).mem ∧
        t.csrs = (clobber .isr (callIsr interrupted)).csrs) interrupted :=
  ⟨by decide, (trap_restores_registers _ clobber interrupted (clobber_abi _) rfl (by decide)).2.2⟩

end Remote8008.Guarantees.TrapFrame
