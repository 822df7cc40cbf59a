import Mathlib.Data.Nat.Bitwise
import Remote8008.Lib.Interaction
import Remote8008.Source.ConsoleBridge

/-!
# The host console client

Source: host/b8008net/console.py:42-166. `drain`, `send` and `check_errors` are
programs over the console register bank; `time.sleep` only lets time pass and
leaves no trace in them. The bounded wait of `send` compares accumulated floating
point time with a timeout, so the number of full polls it tolerates is a
parameter `polls`.
-/

namespace Remote8008.Source.Console
open Lib.Interaction ConsoleBridge

inductive Reg where
  | consoleRx | consoleRxPop | consoleTx | consoleTxData | consoleErr | consoleErrClear
  deriving DecidableEq, Repr

/-- Host integers are unbounded. -/
abbrev Host := Prog Reg Nat

def rxDataMask : Nat := 0xff
def rxValidBit : Nat := 1 <<< 8
def txFullBit : Nat := 1 <<< 9
def drainMaxBytes : Nat := 4096

/-- `for _ in range(DRAIN_MAX_BYTES)`, with the iterations left. -/
def drainLoop : Nat → List UInt8 → Host (List UInt8)
  | 0, out => .ret out
  | left + 1, out => .read .consoleRx fun word =>
    if word &&& rxValidBit = 0 then .ret out
    else .write .consoleRxPop 1 (drainLoop left (out ++ [UInt8.ofNat (word &&& rxDataMask)]))

def drain : Host (List UInt8) := drainLoop drainMaxBytes []

/-- `while tx.read() & _TX_FULL_BIT`: give up once the wait is used up, else write. -/
def waitAndWrite (byte : UInt8) (giveUp written : Host Nat) : Nat → Host Nat
  | 0 => .read .consoleTx fun word =>
    if word &&& txFullBit = 0 then .write .consoleTxData byte.toNat written else giveUp
  | left + 1 => .read .consoleTx fun word =>
    if word &&& txFullBit = 0 then .write .consoleTxData byte.toNat written
    else waitAndWrite byte giveUp written left

def sendLoop (polls : Nat) : List UInt8 → Nat → Host Nat
  | [], accepted => .ret accepted
  | byte :: rest, accepted =>
    waitAndWrite byte (.ret accepted) (sendLoop polls rest (accepted + 1)) polls

def send (polls : Nat) (data : List UInt8) : Host Nat := sendLoop polls data 0

def checkErrors (clear : Bool) : Host Nat :=
  .read .consoleErr fun err =>
    if err ≠ 0 ∧ clear = true then .write .consoleErrClear err (.ret err) else .ret err

/-! ## Decoding the bus words -/

theorem and_two_pow_eq_zero_iff (n i : Nat) : n &&& 2 ^ i = 0 ↔ n / 2 ^ i % 2 = 0 := by
  rw [Nat.and_two_pow, Nat.testBit_eq_decide_div_mod_eq]
  rcases Nat.mod_two_eq_zero_or_one (n / 2 ^ i) with h | h <;> simp [h]

theorem rxWord_data (r : ConsoleRx) : r.word &&& rxDataMask = r.data.toNat := by
  have hmask : rxDataMask = 2 ^ 8 - 1 := by decide
  have hdata := r.data.toNat_lt
  rw [hmask, Nat.and_two_pow_sub_one_eq_mod, ConsoleRx.word]
  omega

theorem rxWord_valid (r : ConsoleRx) : r.word &&& rxValidBit = 0 ↔ r.valid = false := by
  have hbit : rxValidBit = 2 ^ 8 := by decide
  have hdata := r.data.toNat_lt
  rw [hbit, and_two_pow_eq_zero_iff, ConsoleRx.word]
  cases r.valid
  · simp only [Bool.toNat_false, iff_true]
    omega
  · simp only [Bool.toNat_true, Bool.true_eq_false, iff_false]
    omega

theorem txWord_full (t : ConsoleTx) (narrow : t.level < 2 ^ 9) :
    t.word &&& txFullBit = 0 ↔ t.full = false := by
  have hbit : txFullBit = 2 ^ 9 := by decide
  rw [hbit, and_two_pow_eq_zero_iff, ConsoleTx.word]
  cases t.full
  · simp only [Bool.toNat_false, iff_true]
    omega
  · simp only [Bool.toNat_true, Bool.true_eq_false, iff_false]
    omega

end Remote8008.Source.Console
