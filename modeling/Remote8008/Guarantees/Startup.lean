import Remote8008.Source.Crt0

/-!
# The firmware starts with its memory as the C code expects it

firmware/crt0.S:62-94 on every layout firmware/linker.ld can produce. Both loops end on an
equality of addresses, so they depend on the alignment the script gives its symbols; the
copy depends on the sections in ROM and SRAM being apart.
-/

namespace Remote8008.Guarantees.Startup
open Lib.Rv32 Source.Crt0

/-! ## Layouts -/

def dataWords (sym : Symbols) : Nat := (sym.edata - sym.fdata) / 4

def bssWords (sym : Symbols) : Nat := (sym.ebss - sym.fbss) / 4

/-- What the startup code needs of the symbols. -/
structure Layout (sym : Symbols) : Prop where
  dataAligned : sym.fdata % 4 = 0
  romAligned : sym.fdataRom % 4 = 0
  bssAligned : sym.fbss % 4 = 0
  edata : sym.edata = sym.fdata + 4 * dataWords sym
  ebss : sym.ebss = sym.fbss + 4 * bssWords sym
  apart : sym.fdataRom + 4 * dataWords sym ≤ sym.fdata
  order : sym.edata ≤ sym.fbss
  stack : sym.ebss ≤ sym.fstack
  top : sym.fstack ≤ 0x10002000

theorem layout_of_link {sizes : Sections} {sym : Symbols} (linked : link sizes = some sym) :
    Layout sym := by
  dsimp only [link] at linked
  split at linked
  next fits =>
    obtain rfl := Option.some.inj linked
    simp only [align8, sramOrigin, sramLength, romOrigin, romLength] at fits
    constructor <;> simp only [dataWords, bssWords, align8, sramOrigin, sramLength, romOrigin] <;>
      omega
  · cases linked

theorem Layout.fits {sym : Symbols} (layout : Layout sym) :
    sym.fdata + 4 * dataWords sym < 2 ^ 32 ∧ sym.fbss + 4 * bssWords sym < 2 ^ 32 := by
  have edata := layout.edata
  have ebss := layout.ebss
  have order := layout.order
  have stack := layout.stack
  have top := layout.top
  omega

/-! ## The loops -/

/-- Stepping an address register by a word. -/
theorem ofNat_add_four (location : Nat) :
    BitVec.ofNat 32 location + BitVec.ofInt 32 4 = BitVec.ofNat 32 (location + 4) := by
  rw [BitVec.ofNat_add]
  rfl

theorem aligned_ofNat {location : Nat} (aligned : location % 4 = 0) :
    State.aligned (BitVec.ofNat 32 location) = true := by
  simp only [State.aligned, BitVec.toNat_ofNat, decide_eq_true_eq]
  omega

theorem ofNat_ne {left right : Nat} (small : left < 2 ^ 32) (small' : right < 2 ^ 32)
    (differ : left ≠ right) : BitVec.ofNat 32 left ≠ BitVec.ofNat 32 right := by
  intro same
  have values := congrArg BitVec.toNat same
  rw [BitVec.toNat_ofNat, BitVec.toNat_ofNat, Nat.mod_eq_of_lt small,
    Nat.mod_eq_of_lt small'] at values
  exact differ values

variable {sym : Symbols} {call : Function → State → State} {mem : Word → Word} {s : State}

/-- At `data_loop` with `i` words carried over. -/
structure AtData (sym : Symbols) (mem : Word → Word) (i : Nat) (s : State) : Prop where
  pc : s.pc = dataLoop
  a0 : s.reg .a0 = BitVec.ofNat 32 (sym.fdata + 4 * i)
  a1 : s.reg .a1 = BitVec.ofNat 32 sym.edata
  a2 : s.reg .a2 = BitVec.ofNat 32 (sym.fdataRom + 4 * i)
  sp : s.reg .sp = BitVec.ofNat 32 sym.fstack
  mtvec : s.csrs .mtvec = trapEntryAddress
  mem : s.mem = copyWords mem sym.fdataRom sym.fdata i

/-- At `bss_loop` with `i` words cleared. -/
structure AtBss (sym : Symbols) (mem : Word → Word) (i : Nat) (s : State) : Prop where
  pc : s.pc = bssLoop
  a0 : s.reg .a0 = BitVec.ofNat 32 (sym.fbss + 4 * i)
  a1 : s.reg .a1 = BitVec.ofNat 32 sym.ebss
  sp : s.reg .sp = BitVec.ofNat 32 sym.fstack
  mtvec : s.csrs .mtvec = trapEntryAddress
  mem : s.mem = fillWords mem sym.fbss 0 i

theorem reaches_data (start : s.pc = 0) :
    Eventually (program sym) call (AtData sym s.mem 0) s := by
  obtain ⟨pc, regs, mem, csrs⟩ := s
  obtain rfl : pc = 0 := start
  refine .next rfl rfl (.next rfl rfl (.next rfl rfl (.next rfl rfl (.next rfl rfl
    (.next rfl rfl (.next rfl rfl (.here ?_)))))))
  exact ⟨rfl, rfl, rfl, rfl, rfl, rfl, rfl⟩

theorem data_round (layout : Layout sym) {i : Nat} (below : i < dataWords sym)
    (at' : AtData sym mem i s) : Eventually (program sym) call (AtData sym mem (i + 1)) s := by
  have fits := layout.fits.1
  have differ : s.reg .a0 ≠ s.reg .a1 := by
    rw [at'.a0, at'.a1, layout.edata]
    exact ofNat_ne (by omega) (by omega) (by omega)
  have source : State.aligned (s.address 0 .a2) = true := by
    rw [State.address_zero, at'.a2]
    exact aligned_ofNat (by have := layout.romAligned; omega)
  have target : State.aligned (s.address 0 .a0) = true := by
    rw [State.address_zero, at'.a0]
    exact aligned_ofNat (by have := layout.dataAligned; omega)
  have copied : Function.update s.mem (s.address 0 .a0) (s.mem (s.address 0 .a2)) =
      copyWords mem sym.fdataRom sym.fdata (i + 1) := by
    rw [State.address_zero, State.address_zero, at'.a0, at'.a2, at'.mem]
    rfl
  obtain ⟨pc, regs, memory, csrs⟩ := s
  obtain rfl : pc = dataLoop := at'.pc
  refine .next rfl (if_neg differ) (.next rfl (if_pos source) (.next rfl (if_pos target)
    (.next rfl rfl (.next rfl rfl (.next rfl rfl (.here ?_))))))
  exact ⟨rfl, (congrArg (· + BitVec.ofInt 32 4) at'.a0).trans (ofNat_add_four _), at'.a1,
    (congrArg (· + BitVec.ofInt 32 4) at'.a2).trans (ofNat_add_four _), at'.sp, at'.mtvec, copied⟩

theorem reaches_bss (layout : Layout sym) (at' : AtData sym mem (dataWords sym) s) :
    Eventually (program sym) call
      (AtBss sym (copyWords mem sym.fdataRom sym.fdata (dataWords sym)) 0) s := by
  have same : s.reg .a0 = s.reg .a1 := by rw [at'.a0, at'.a1, layout.edata]
  obtain ⟨pc, regs, memory, csrs⟩ := s
  obtain rfl : pc = dataLoop := at'.pc
  refine .next rfl (if_pos same) (.next rfl rfl (.next rfl rfl (.here ?_)))
  exact ⟨rfl, rfl, rfl, at'.sp, at'.mtvec, at'.mem⟩

theorem bss_round (layout : Layout sym) {i : Nat} (below : i < bssWords sym)
    (at' : AtBss sym mem i s) : Eventually (program sym) call (AtBss sym mem (i + 1)) s := by
  have fits := layout.fits.2
  have differ : s.reg .a0 ≠ s.reg .a1 := by
    rw [at'.a0, at'.a1, layout.ebss]
    exact ofNat_ne (by omega) (by omega) (by omega)
  have target : State.aligned (s.address 0 .a0) = true := by
    rw [State.address_zero, at'.a0]
    exact aligned_ofNat (by have := layout.bssAligned; omega)
  have cleared : Function.update s.mem (s.address 0 .a0) 0 = fillWords mem sym.fbss 0 (i + 1) := by
    rw [State.address_zero, at'.a0, at'.mem]
    rfl
  obtain ⟨pc, regs, memory, csrs⟩ := s
  obtain rfl : pc = bssLoop := at'.pc
  refine .next rfl (if_neg differ) (.next rfl (if_pos target) (.next rfl rfl (.next rfl rfl
    (.here ?_))))
  exact ⟨rfl, (congrArg (· + BitVec.ofInt 32 4) at'.a0).trans (ofNat_add_four _), at'.a1, at'.sp,
    at'.mtvec, cleared⟩

/-- At `call main`. -/
structure Ready (sym : Symbols) (mem : Word → Word) (s : State) : Prop where
  pc : s.pc = callMain
  sp : s.reg .sp = BitVec.ofNat 32 sym.fstack
  mtvec : s.csrs .mtvec = trapEntryAddress
  mie : s.csrs .mie = 0x880
  mem : s.mem = mem

theorem reaches_main (layout : Layout sym) (at' : AtBss sym mem (bssWords sym) s) :
    Eventually (program sym) call (Ready sym (fillWords mem sym.fbss 0 (bssWords sym))) s := by
  have same : s.reg .a0 = s.reg .a1 := by rw [at'.a0, at'.a1, layout.ebss]
  obtain ⟨pc, regs, memory, csrs⟩ := s
  obtain rfl : pc = bssLoop := at'.pc
  refine .next rfl (if_pos same) (.next rfl rfl (.next rfl rfl (.here ?_)))
  exact ⟨rfl, at'.sp, at'.mtvec, rfl, at'.mem⟩

/-- The whole of the startup code. -/
theorem starts (layout : Layout sym) (start : s.pc = 0) :
    Eventually (program sym) call (Ready sym (fillWords
      (copyWords s.mem sym.fdataRom sym.fdata (dataWords sym)) sym.fbss 0 (bssWords sym))) s :=
  (reaches_data start).trans fun _ atStart =>
  (Eventually.count _ (fun _ _ below => data_round layout below) atStart).trans fun _ atEnd =>
  (reaches_bss layout atEnd).trans fun _ atStart' =>
  (Eventually.count _ (fun _ _ below => bss_round layout below) atStart').trans fun _ atEnd' =>
  reaches_main layout atEnd'

/-! ## What `main` finds -/

/-- Words that belong to neither section. -/
def Elsewhere (sym : Symbols) (a : Word) : Prop :=
  Outside sym.fdata (dataWords sym) a ∧ Outside sym.fbss (bssWords sym) a

theorem initialised_memory (layout : Layout sym) (mem : Word → Word) :
    let after := fillWords (copyWords mem sym.fdataRom sym.fdata (dataWords sym)) sym.fbss 0
      (bssWords sym)
    (∀ i < dataWords sym, after (BitVec.ofNat 32 (sym.fdata + 4 * i)) =
      mem (BitVec.ofNat 32 (sym.fdataRom + 4 * i))) ∧
    (∀ i < bssWords sym, after (BitVec.ofNat 32 (sym.fbss + 4 * i)) = 0) ∧
    ∀ a, Elsewhere sym a → after a = mem a := by
  have fits := layout.fits
  refine ⟨fun i below => ?_, fun i below => fillWords_read _ below, fun a elsewhere => ?_⟩
  · have order := layout.order
    have edata := layout.edata
    rw [fillWords_frame _ (by omega) (outside_ofNat (by omega) (by omega))]
    exact copyWords_read mem (by omega) layout.apart below
  · rw [fillWords_frame _ (by omega) elsewhere.2]
    exact copyWords_frame mem (by omega) elsewhere.1

/-- For every program that links, and whatever the registers and the memory hold at reset:
the startup code comes to `call main` without a trap, with the stack pointer at the end of
SRAM, the trap vector and the interrupt mask set, `.data` equal to its image in ROM, `.bss`
cleared and no other word of memory touched. The sections it wrote lie below the stack. -/
theorem startup_prepares_memory (sizes : Sections) (linked : link sizes = some sym)
    (call : Function → State → State) (s : State) (start : s.pc = 0) :
    Eventually (program sym) call (fun t =>
      t.pc = callMain ∧ t.reg .sp = BitVec.ofNat 32 sym.fstack ∧
      t.csrs .mtvec = trapEntryAddress ∧ t.csrs .mie = 0x880 ∧
      (∀ i < dataWords sym, t.mem (BitVec.ofNat 32 (sym.fdata + 4 * i)) =
        s.mem (BitVec.ofNat 32 (sym.fdataRom + 4 * i))) ∧
      (∀ i < bssWords sym, t.mem (BitVec.ofNat 32 (sym.fbss + 4 * i)) = 0) ∧
      ∀ a, Elsewhere sym a → t.mem a = s.mem a) s ∧
    sym.edata ≤ sym.fbss ∧ sym.ebss ≤ sym.fstack := by
  have layout := layout_of_link linked
  refine ⟨(starts layout start).trans fun t ready => .here ?_, layout.order, layout.stack⟩
  rw [ready.mem]
  exact ⟨ready.pc, ready.sp, ready.mtvec, ready.mie, initialised_memory layout s.mem⟩

/-- Ten bytes of `.data` behind a page of code, and a hundred of `.bss`. -/
def smallSections : Sections := ⟨0x1000, 0x20, 10, 100⟩

def smallSymbols : Symbols :=
  ⟨0x10000000, 0x10000010, 0x10000010, 0x10000078, 0x10002000, 0x1020⟩

/-- The state at reset, each word of memory holding its address. -/
def atReset : State := ⟨0, fun _ => 0xdead, fun a => a, fun _ => 0⟩

theorem small_startup_prepares_memory :
    link smallSections = some smallSymbols ∧
    Eventually (program smallSymbols) (fun _ s => s) (fun t =>
      t.pc = callMain ∧ t.reg .sp = 0x10002000 ∧ t.mem 0x10000004 = 0x1024 ∧
      t.mem 0x10000014 = 0 ∧ t.mem 0x10000078 = 0x10000078) atReset := by
  have linked : link smallSections = some smallSymbols := by decide
  refine ⟨linked, ?_⟩
  have started := startup_prepares_memory smallSections linked (fun _ s => s) atReset rfl
  refine started.1.trans fun t ⟨pc, sp, _, _, data, bss, elsewhere⟩ => .here ?_
  exact ⟨pc, sp, data 1 (by decide), bss 1 (by decide),
    elsewhere _ ⟨.inr (by decide), .inr (by decide)⟩⟩

end Remote8008.Guarantees.Startup
