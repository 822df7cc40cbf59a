import Mathlib.Data.List.TakeWhile
import Remote8008.Guarantees.SendExact
import Remote8008.Lib.Raising

/-!
# Typed input reaches the board up to the escape byte

host/b8008net/console.py:123-153,182-238,273-276. A session is the loop of `console_loop`:
iterations of `console_pump` until one returns `False`. Standard input decides how the
typed stream is cut into chunks and the board decides what every register read shows, by
everything that happened before. What arrives is the stream up to the first escape byte,
less what a bounded wait gave up on, and each such loss is announced with its size.
-/

namespace Remote8008.Guarantees.TypedInput
open Lib.Interaction
open Source.Console Source.ConsolePump System.BridgeSession

/-! ## What the operations say -/

/-- The bytes written to `console_tx_data`, oldest first. -/
def bytesWritten (ops : List (Op Port Item)) : List UInt8 :=
  ops.filterMap fun
    | .write (.csr .consoleTxData) item => some (UInt8.ofNat item.toWord)
    | _ => none

/-- A wait ran out: one poll more than it tolerates, in a row, and none showed room. -/
def TimesOut (polls : Nat) (ops : List (Op Port Item)) : Prop :=
  ∃ before, ∃ shown : List Item, ∃ later,
    ops = before ++ shown.map (.read (.csr .consoleTx)) ++ later ∧
    shown.length = polls + 1 ∧ ∀ item ∈ shown, ¬ ShowsRoom item

/-- `data` was offered to the board: what was written is its beginning, a shortfall is
reported with its size, and without a wait that ran out there is none. -/
structure Forwarded (polls : Nat) (data : List UInt8) (ops : List (Op Port Item)) : Prop where
  order : bytesWritten ops <+: data
  announced : bytesWritten ops ≠ data →
    .write .stderr (.text (droppedReport (data.length - (bytesWritten ops).length) data.length))
      ∈ ops
  complete : ¬ TimesOut polls ops → bytesWritten ops = data

/-- Not a write of typed data. -/
def Apart (o : Op Port Item) : Prop := ∀ item, o ≠ .write (.csr .consoleTxData) item

theorem bytesWritten_append (before later : List (Op Port Item)) :
    bytesWritten (before ++ later) = bytesWritten before ++ bytesWritten later :=
  List.filterMap_append

theorem bytesWritten_apart {ops : List (Op Port Item)} (apart : ∀ o ∈ ops, Apart o) :
    bytesWritten ops = [] := by
  refine List.filterMap_eq_nil_iff.mpr fun o member => ?_
  split
  next item => exact absurd rfl (apart _ member item)
  · rfl

theorem TimesOut.behind {polls : Nat} {ops : List (Op Port Item)} (out : TimesOut polls ops)
    (front back : List (Op Port Item)) : TimesOut polls (front ++ ops ++ back) := by
  obtain ⟨before, shown, later, split, long, full⟩ := out
  exact ⟨front ++ before, shown, later ++ back, by simp [split], long, full⟩

theorem Forwarded.behind {polls : Nat} {data : List UInt8} {front ops : List (Op Port Item)}
    (apart : ∀ o ∈ front, Apart o) (sent : Forwarded polls data ops) :
    Forwarded polls data (front ++ ops) := by
  have same : bytesWritten (front ++ ops) = bytesWritten ops := by
    rw [bytesWritten_append, bytesWritten_apart apart, List.nil_append]
  refine ⟨?_, ?_, ?_⟩
  · rw [same]
    exact sent.order
  · rw [same]
    exact fun short => List.mem_append_right front (sent.announced short)
  · intro room
    rw [same]
    exact sent.complete fun out => room (by simpa using out.behind front [])

/-- What stands on standard input when an iteration starts: nothing yet, or what
`stdin.read` returns, which is nothing only at the end of input. -/
abbrev Input := Option (List UInt8)

/-- End of input, or the escape byte. -/
def closes : Input → Bool
  | none => false
  | some data => decide (data = [] ∨ exitByte ∈ data)

/-- The board shows what it likes and standard input gives its chunk. -/
def surroundings (bus : List (Op Port Item) → Reg → Nat) (input : Input)
    (history : List (Op Port Item)) : Port → Item
  | .csr reg => .word (bus history reg)
  | .stdin => .bytes (input.getD [])
  | .stdout | .stderr => .word 0

structure Iteration where
  input : Input
  ops : List (Op Port Item)
  returned : Bool
  deriving DecidableEq, Repr

/-- `while True: if not console_pump(..): break`, with the operations of each iteration. -/
def session (polls : Nat) (bus : List (Op Port Item) → Reg → Nat) :
    List Input → List (Op Port Item) → List Iteration
  | [], _ => []
  | input :: rest, history =>
    let (goes, ops) := (consolePump polls input.isSome).perform (surroundings bus input) history
    ⟨input, ops.drop history.length, goes⟩ :: if goes then session polls bus rest ops else []

/-- Everything typed up to the end of input. -/
def typed : List Input → List UInt8
  | [] => []
  | none :: rest => typed rest
  | some [] :: _ => []
  | some data :: rest => data ++ typed rest

/-- The inputs up to and with the first that closes the session. -/
def consumed : List Input → List Input
  | [] => []
  | input :: rest => input :: if closes input then [] else consumed rest

end Remote8008.Guarantees.TypedInput
