import Remote8008.Source.Eb8008
import Remote8008.Source.EtherboneWire

/-!
# The bridge's broadcast transport

Source: host/b8008net/eb_server.py:78-115, `CommUDPBroadcast.read`. The method is a
state machine between its calls of `recvfrom`: `begin` starts an iteration of
the `for` loop, `receive` runs the body of the `while` loop on a datagram, and
`timeout` leaves it. A datagram that was sent carries what it says, and a call
in progress lists its requests; neither is read by the code.

The packet codec of LiteX is a parameter. What is assumed of it is in `Codec`: it
speaks the record grammar of `EtherboneWire` in packets of four-byte addresses and words,
the only ones on the wire (SPEC.md S-WIRE-2). Where it raises, the functions return
`none`.
-/

namespace Remote8008.Source.EbServer
open Eb8008 EtherboneWire

/-- The header of a packet of records: neither a probe nor a probe reply. -/
structure Clear (h : Header) : Prop where
  sizes : h.sizes = wordSizes
  pf : h.flags &&& ebPf = 0
  pr : h.flags &&& ebPr = 0

/-- The header of a probe or of a probe reply. -/
structure Probing (h : Header) : Prop where
  sizes : h.sizes = wordSizes
  flagged : h.flags &&& ebPf ≠ 0 ∨ h.flags &&& ebPr ≠ 0

/-- The read section of a record asks for these addresses under this identifier. -/
def Asks (id : Nat) (addrs : List Nat) : Option Section → Prop
  | none => addrs = []
  | some t => t.head = UInt32.ofNat id ∧ t.items = addrs.map UInt32.ofNat

/-- `EtherbonePacket.encode` for the one record of a read, and `EtherbonePacket.decode`. -/
structure Codec where
  encodeReads : Nat → List Nat → Option (List UInt8)
  decode : List UInt8 → Option (List Record)
  request : ∀ id addrs bytes, encodeReads id addrs = some bytes →
    ∃ h r, Clear h ∧ bytes = encode h [r] ∧ r.writes = none ∧ Asks id addrs r.reads
  packet : ∀ h r, Clear h → ∃ r', decode (encode h [r]) = some [r'] ∧ r'.writes = r.writes
  probe : ∀ h records, Probing h → decode (encode h [⟨0, 0, none, none⟩]) = some records →
    ∀ r ∈ records, r.writes = none

/-- What a datagram of the bridge says. -/
inductive Kind where
  | read (id : Nat) (addrs : List Nat)
  | probe
  | write (base : UInt32)
  deriving DecidableEq

def Speaks : Kind → List UInt8 → Prop
  | .read id addrs, bytes =>
    ∃ h r, Clear h ∧ bytes = encode h [r] ∧ r.writes = none ∧ Asks id addrs r.reads
  | .probe, bytes => ∃ h, h.sizes = wordSizes ∧ h.flags &&& ebPf ≠ 0 ∧
      bytes = encode h [⟨0, 0, none, none⟩]
  | .write base, bytes => ∃ h r w, Clear h ∧ bytes = encode h [r] ∧ r.reads = none ∧
      r.writes = some w ∧ w.head = base

structure Sent where
  bytes : List UInt8
  kind : Kind
  speaks : Speaks kind bytes

/-- A call of `read` in progress. `began` is the caller's clock at the call. -/
structure Reading where
  addr : Nat
  length : Option Nat
  tries : Nat
  requests : List Sent
  began : Nat

/-- `addr+4*j for j in range(length_int)`. -/
def Reading.addrs (r : Reading) : List Nat :=
  (List.range (r.length.getD 1)).map fun j => r.addr + 4 * j

inductive Answer where
  | word (value : UInt32)
  | words (values : List UInt32)
  deriving DecidableEq

/-- `failed` is any other exception. -/
inductive Outcome where
  | returned (answer : Answer)
  | timedOut
  | failed
  deriving DecidableEq

/-- `counter` is `read_counter`. -/
structure Comm where
  counter : Nat
  sent : List Sent
  reading : Option Reading
  finished : List (Reading × Outcome)

/-- `return values[0] if length is None else values`. -/
def returnValue (length : Option Nat) (values : List UInt32) : Option Answer :=
  match length with
  | none => values.head?.map .word
  | some _ => some (.words values)

/-- The `try` block: the values, if the datagram answers attempt `counter`. -/
def replyValues (codec : Codec) (counter : Nat) (datas : List UInt8) : Option (List UInt32) := do
  let records ← codec.decode datas
  let record ← records.getLast?
  let writes ← record.writes
  if writes.head.toNat ≠ counter then none else some writes.items

namespace Comm

def finish (m : Comm) (r : Reading) (outcome : Outcome) : Comm :=
  { m with reading := none, finished := m.finished ++ [(r, outcome)] }

/-- One iteration up to `recvfrom`. -/
def begin (codec : Codec) (m : Comm) (r : Reading) : Comm :=
  let id := m.counter + 1
  match encoded : codec.encodeReads id r.addrs with
  | none => { m with counter := id }.finish r .failed
  | some bytes =>
    let request : Sent := ⟨bytes, .read id r.addrs, codec.request _ _ _ encoded⟩
    { m with
      counter := id
      sent := m.sent ++ [request]
      reading := some { r with tries := r.tries + 1, requests := r.requests ++ [request] } }

def read (codec : Codec) (m : Comm) (now addr : Nat) (length : Option Nat) : Comm :=
  m.begin codec ⟨addr, length, 0, [], now⟩

/-- A datagram that is no answer leaves the loop waiting. -/
def receive (codec : Codec) (m : Comm) (r : Reading) (datas : List UInt8) : Comm :=
  match replyValues codec m.counter datas with
  | none => m
  | some values =>
    match returnValue r.length values with
    | none => m.finish r .failed
    | some answer => m.finish r (.returned answer)

def timeout (codec : Codec) (m : Comm) (r : Reading) : Comm :=
  if r.tries = 10 then m.finish r .timedOut else m.begin codec r

end Comm

end Remote8008.Source.EbServer
