import Remote8008.Lib.ProgramLogic
import Remote8008.Source.Console

/-!
# One iteration of the interactive loop

Source: host/b8008net/console.py:52-60,86-88,169-238. `console_pump` talks to the
register bank and to the three standard streams, so it is a program over `Port`. A
`print` is one write of its line to standard error; `flush` moves nothing and is left
out. What `stdin.read` returns is for the terminal to say.
-/

namespace Remote8008.Source.ConsolePump
open Lib.Interaction Console

inductive Port where
  | csr (reg : Reg)
  | stdin | stdout | stderr
  deriving DecidableEq, Repr

inductive Item where
  | word (value : Nat)
  | bytes (data : List UInt8)
  | text (line : String)
  deriving DecidableEq, Repr

/-- A register read gives a word and `stdin.read` gives bytes. -/
def Item.toWord : Item → Nat
  | word value => value
  | bytes _ | text _ => 0

def Item.toBytes : Item → List UInt8
  | bytes data => data
  | word _ | text _ => []

abbrev Client := Prog Port Item

variable {α : Type}

/-- The register operations of a host program. -/
def onBus (p : Host α) : Client α := p.relabel .csr .word Item.toWord

@[simp] theorem onBus_ret (value : α) : onBus (.ret value) = .ret value := rfl

@[simp] theorem onBus_read (reg : Reg) (next : Nat → Host α) :
    onBus (.read reg next) = .read (.csr reg) fun item => onBus (next item.toWord) := rfl

@[simp] theorem onBus_write (reg : Reg) (value : Nat) (next : Host α) :
    onBus (.write reg value next) = .write (.csr reg) (.word value) (onBus next) := rfl

/-- `_ERROR_NAMES`, by the bit of `console_err`. -/
def errorName : Fin 3 → String
  | 0 => "rx_overflow"
  | 1 => "tx_write_when_full"
  | 2 => "rx_pop_when_empty"

def describeErrors (err : Nat) : List String :=
  ((List.finRange 3).filter fun bit => err.testBit bit.val).map errorName

def hex (n : Nat) : String := "0x" ++ String.ofList (Nat.toDigits 16 n)

/-- The line `_report_errors` prints. -/
def errorReport (err : Nat) : String :=
  let names := ", ".intercalate (describeErrors err)
  "-- console: error condition detected (" ++ (if names = "" then hex err else names) ++
    ") -- bytes may be missing from this transcript --"

/-- The line `_report_dropped` prints. -/
def droppedReport (dropped total : Nat) : String :=
  "-- console: " ++ toString dropped ++ " of " ++ toString total ++
    " typed byte(s) dropped -- TX FIFO stayed full --"

def exitByte : UInt8 := 0x1d
def readChunk : Nat := 4096

def reportErrors (err : Nat) : Client Unit := .write .stderr (.text (errorReport err)) (.ret ())

def sendAndReport (polls : Nat) (data : List UInt8) : Client Unit :=
  (onBus (send polls data)).bind fun accepted =>
    if accepted < data.length then
      .write .stderr (.text (droppedReport (data.length - accepted) data.length)) (.ret ())
    else .ret ()

/-- `if err: _report_errors(err)`. -/
def announce (err : Nat) : Client Unit := if err ≠ 0 then reportErrors err else .ret ()

/-- `if out: stdout.write(out)`. -/
def forward (out : List UInt8) : Client Unit :=
  if out ≠ [] then .write .stdout (.bytes out) (.ret ()) else .ret ()

/-- The `stdin_ready` branch. -/
def pumpStdin (polls : Nat) : Client Bool :=
  .read .stdin fun item =>
    let data := item.toBytes
    if data = [] then .ret false
    else match data.idxOf? exitByte with
      | some index =>
        if index > 0 then (sendAndReport polls (data.take index)).bind fun _ => .ret false
        else .ret false
      | none => (sendAndReport polls data).bind fun _ => .ret true

def consolePump (polls : Nat) (stdinReady : Bool) : Client Bool :=
  (onBus (checkErrors true)).bind fun err =>
  (announce err).bind fun _ =>
  (onBus drain).bind fun out =>
  (forward out).bind fun _ =>
  if stdinReady then pumpStdin polls else .ret true

end Remote8008.Source.ConsolePump
