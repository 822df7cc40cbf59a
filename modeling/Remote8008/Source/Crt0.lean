import Remote8008.Lib.Rv32

/-!
# Startup code and memory layout of the firmware

Source: firmware/crt0.S and firmware/linker.ld. The script lays the sections out; what it
is given are the sizes of their contents. `.data` runs from SRAM and is loaded from ROM, and
the startup code has to carry it over and to clear `.bss` before it calls `main`. Labels
are indices into the program, in the order of the file.
-/

namespace Remote8008.Source.Crt0
open Lib.Rv32

/-! ## linker.ld -/

def romOrigin : Nat := 0x00000000
def romLength : Nat := 0x00010000
def sramOrigin : Nat := 0x10000000
def sramLength : Nat := 0x00002000

/-- Bytes of the input sections gathered in each output section. -/
structure Sections where
  text : Nat
  rodata : Nat
  data : Nat
  bss : Nat
  deriving DecidableEq, Repr

structure Symbols where
  fdata : Nat
  edata : Nat
  fbss : Nat
  ebss : Nat
  fstack : Nat
  fdataRom : Nat
  deriving DecidableEq, Repr

/-- `. = ALIGN(8)`. -/
def align8 (location : Nat) : Nat := (location + 7) / 8 * 8

/-- The symbols of the script; `none` is a region that overflows. -/
def link (s : Sections) : Option Symbols :=
  let etext := romOrigin + s.text
  let frodata := align8 etext
  let erodata := align8 (frodata + s.rodata)
  let fdata := align8 sramOrigin
  let edata := align8 (fdata + s.data)
  let fbss := align8 edata
  let ebss := align8 (fbss + s.bss)
  -- LOADADDR(.data): the next free byte of rom
  let fdataRom := erodata
  if fdataRom + (edata - sramOrigin) ≤ romOrigin + romLength ∧ ebss ≤ sramOrigin + sramLength then
    some ⟨fdata, edata, fbss, ebss, sramOrigin + sramLength, fdataRom⟩
  else none

/-! ## crt0.S -/

inductive Function where
  | isr | main
  deriving DecidableEq, Repr

def trapEntry : Nat := 8
def crtInit : Nat := 44
def dataLoop : Nat := 50
def dataDone : Nat := 56
def bssLoop : Nat := 58
def bssDone : Nat := 62
def infinitLoop : Nat := 65

/-- The address of `trap_entry`: eight instructions of four bytes into the ROM. -/
def trapEntryAddress : Word := BitVec.ofNat 32 (romOrigin + 4 * trapEntry)

def program (sym : Symbols) : List (Instr Function) :=
  [ -- _start:
    .j crtInit, .nop, .nop, .nop, .nop, .nop, .nop, .nop,
    -- trap_entry:
    .sw .x1 (-1 * 4) .sp, .sw .x5 (-2 * 4) .sp, .sw .x6 (-3 * 4) .sp, .sw .x7 (-4 * 4) .sp,
    .sw .x10 (-5 * 4) .sp, .sw .x11 (-6 * 4) .sp, .sw .x12 (-7 * 4) .sp, .sw .x13 (-8 * 4) .sp,
    .sw .x14 (-9 * 4) .sp, .sw .x15 (-10 * 4) .sp, .sw .x16 (-11 * 4) .sp, .sw .x17 (-12 * 4) .sp,
    .sw .x28 (-13 * 4) .sp, .sw .x29 (-14 * 4) .sp, .sw .x30 (-15 * 4) .sp, .sw .x31 (-16 * 4) .sp,
    .addi .sp .sp (-16 * 4),
    .call .isr,
    .lw .x1 (15 * 4) .sp, .lw .x5 (14 * 4) .sp, .lw .x6 (13 * 4) .sp, .lw .x7 (12 * 4) .sp,
    .lw .x10 (11 * 4) .sp, .lw .x11 (10 * 4) .sp, .lw .x12 (9 * 4) .sp, .lw .x13 (8 * 4) .sp,
    .lw .x14 (7 * 4) .sp, .lw .x15 (6 * 4) .sp, .lw .x16 (5 * 4) .sp, .lw .x17 (4 * 4) .sp,
    .lw .x28 (3 * 4) .sp, .lw .x29 (2 * 4) .sp, .lw .x30 (1 * 4) .sp, .lw .x31 (0 * 4) .sp,
    .addi .sp .sp (16 * 4),
    .mret,
    -- crt_init:
    .la .sp (BitVec.ofNat 32 sym.fstack),
    .la .a0 trapEntryAddress,
    .csrw .mtvec .a0,
    -- data_init:
    .la .a0 (BitVec.ofNat 32 sym.fdata),
    .la .a1 (BitVec.ofNat 32 sym.edata),
    .la .a2 (BitVec.ofNat 32 sym.fdataRom),
    -- data_loop:
    .beq .a0 .a1 dataDone,
    .lw .a3 0 .a2,
    .sw .a3 0 .a0,
    .addi .a0 .a0 4,
    .addi .a2 .a2 4,
    .j dataLoop,
    -- data_done, bss_init:
    .la .a0 (BitVec.ofNat 32 sym.fbss),
    .la .a1 (BitVec.ofNat 32 sym.ebss),
    -- bss_loop:
    .beq .a0 .a1 bssDone,
    .sw .zero 0 .a0,
    .addi .a0 .a0 4,
    .j bssLoop,
    -- bss_done:
    .la .a0 0x880,
    .csrw .mie .a0,
    .call .main,
    -- infinit_loop:
    .j infinitLoop ]

/-- `call main`. -/
def callMain : Nat := 64

/-- `mret` of the trap handler. -/
def trapReturn : Nat := 43

end Remote8008.Source.Crt0
