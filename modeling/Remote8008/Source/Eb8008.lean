import Remote8008.Lib.BigEndian

/-!
# The software Etherbone server

Source: firmware/eb8008.c:27-132. `eb8008Handle` follows the C function statement
by statement: `p` is the offset of the read pointer in the request, `respLen` the
number of reply bytes produced so far, and `resp` the reply buffer, whose cells
are `none` until the code stores into them. A load past the request is a fault of
the model, where the C code would read foreign memory.

The bus is a parameter: on the target an access is a pointer dereference, and a
read may change the state of the register behind it.
-/

namespace Remote8008.Source.Eb8008
open Lib.BigEndian

def ebMagic0 : UInt8 := 0x4e
def ebMagic1 : UInt8 := 0x6f
def ebPf : UInt8 := 0x01
def ebPr : UInt8 := 0x02

inductive Fault where
  | readPastEnd (index : Nat) | outOfFuel
  deriving DecidableEq, Repr

/-- `eb8008_bus_read` and `eb8008_bus_write` over a bus state `σ`. -/
structure Bus (σ : Type) where
  read : σ → UInt32 → UInt32 × σ
  write : σ → UInt32 → UInt32 → σ

inductive Access where
  | read (addr value : UInt32)
  | write (addr value : UInt32)
  deriving DecidableEq, Repr

abbrev Resp := Nat → Option UInt8

/-- The handler's bus, the accesses it has made, and its reply so far. -/
structure Exec (σ : Type) where
  bus : σ
  accesses : List Access
  resp : Resp
  respLen : Nat

def byteAt (req : List UInt8) (i : Nat) : Except Fault UInt8 :=
  match req[i]? with
  | some b => .ok b
  | none => .error (.readPastEnd i)

def getBe32 (req : List UInt8) (p : Nat) : Except Fault UInt32 := do
  let b0 ← byteAt req p
  let b1 ← byteAt req (p + 1)
  let b2 ← byteAt req (p + 2)
  let b3 ← byteAt req (p + 3)
  return ofBe32 [b0, b1, b2, b3]

def put (resp : Resp) (i : Nat) (b : UInt8) : Resp := fun j => if j = i then some b else resp j

def putBytes (resp : Resp) (i : Nat) : List UInt8 → Resp
  | [] => resp
  | b :: rest => putBytes (put resp i b) (i + 1) rest

def putBe32 (resp : Resp) (i : Nat) (v : UInt32) : Resp := putBytes resp i (be32 v)

/-- Version 1 with the probe-reply flag, then address and port size 4. -/
def headerBytes (pr : Bool) : List UInt8 :=
  [ebMagic0, ebMagic1, ((1 : UInt8) <<< 4) ||| (if pr then ebPr else 0), 0x44, 0, 0, 0, 0]

def putHeader (resp : Resp) (i : Nat) (pr : Bool) : Resp := putBytes resp i (headerBytes pr)

variable {σ : Type} (bus : Bus σ) (req : List UInt8)

def Exec.busWrite (x : Exec σ) (addr value : UInt32) : Exec σ :=
  { x with bus := bus.write x.bus addr value, accesses := x.accesses ++ [.write addr value] }

def Exec.busRead (x : Exec σ) (addr : UInt32) : UInt32 × Exec σ :=
  let (value, after) := bus.read x.bus addr
  (value, { x with bus := after, accesses := x.accesses ++ [.read addr value] })

/-- `for (i = 0; i < wcount; i++)`: `count` iterations remain. -/
def writeWords (addr : UInt32) : Nat → Nat → Nat → Exec σ → Except Fault (Nat × Exec σ)
  | 0, _, p, x => .ok (p, x)
  | count + 1, i, p, x => do
    let value ← getBe32 req p
    writeWords addr count (i + 1) (p + 4) (x.busWrite bus (addr + UInt32.ofNat (4 * i)) value)

/-- `for (i = 0; i < rcount; i++)`: each value read is appended to the reply. -/
def readWords : Nat → Nat → Exec σ → Except Fault (Nat × Exec σ)
  | 0, p, x => .ok (p, x)
  | count + 1, p, x => do
    let addr ← getBe32 req p
    let (value, x) := x.busRead bus addr
    readWords count (p + 4)
      { x with resp := putBe32 x.resp x.respLen value, respLen := x.respLen + 4 }

/-- How a section leaves the record loop: `break`, or on with the next offset. -/
inductive Flow (σ : Type) where
  | stop (x : Exec σ)
  | next (p : Nat) (x : Exec σ)

def writeSection (wcount p : Nat) (x : Exec σ) : Except Fault (Flow σ) :=
  if wcount = 0 then .ok (.next p x)
  else if p + 4 * (1 + wcount) > req.length then .ok (.stop x)
  else do
    let addr ← getBe32 req p
    let (p, x) ← writeWords bus req addr wcount 0 (p + 4) x
    return .next p x

/-- The reply header is written by the first read section of the packet. -/
def openReply (x : Exec σ) : Exec σ :=
  if x.respLen = 0 then { x with resp := putHeader x.resp 0 false, respLen := 8 } else x

def putRecordHeader (x : Exec σ) (rcount : Nat) (baseRetAddr : UInt32) : Exec σ :=
  { x with
    resp := putBe32 (putBytes x.resp x.respLen [0, 0x0f, UInt8.ofNat rcount, 0])
      (x.respLen + 4) baseRetAddr
    respLen := x.respLen + 8 }

def readSection (rcount p : Nat) (x : Exec σ) : Except Fault (Flow σ) :=
  if rcount = 0 then .ok (.next p x)
  else if p + 4 * (1 + rcount) > req.length then .ok (.stop x)
  else do
    let baseRetAddr ← getBe32 req p
    let (p, x) ← readWords bus req rcount (p + 4) (putRecordHeader (openReply x) rcount baseRetAddr)
    return .next p x

/-- `while (p + 4 <= end)`. Every iteration consumes at least the record header,
so a fuel above the request length is never used up. -/
def recordLoop : Nat → Nat → Exec σ → Except Fault (Exec σ)
  | 0, _, _ => .error .outOfFuel
  | fuel + 1, p, x =>
    if p + 4 ≤ req.length then do
      let wcount ← byteAt req (p + 2)
      let rcount ← byteAt req (p + 3)
      match ← writeSection bus req wcount.toNat (p + 4) x with
      | .stop x => return x
      | .next p x =>
        match ← readSection bus req rcount.toNat p x with
        | .stop x => return x
        | .next p x => recordLoop fuel p x
    else .ok x

/-- The return value is `respLen` of the result; the reply is the first that many
cells of `resp`. -/
def eb8008Handle (s : σ) : Except Fault (Exec σ) :=
  let x : Exec σ := ⟨s, [], fun _ => none, 0⟩
  if req.length < 8 then .ok x
  else do
    let m0 ← byteAt req 0
    let m1 ← byteAt req 1
    if m0 ≠ ebMagic0 ∨ m1 ≠ ebMagic1 then return x
    let flags ← byteAt req 2
    if flags &&& ebPf ≠ 0 then
      return { x with resp := putBe32 (putHeader x.resp 0 true) 8 0, respLen := 12 }
    recordLoop bus req (req.length + 1) 8 x

/-- The bytes a caller copies out of the reply buffer. -/
def Exec.reply (x : Exec σ) : List UInt8 :=
  (List.range x.respLen).map fun i => (x.resp i).getD 0

end Remote8008.Source.Eb8008
