import Mathlib.Logic.Function.Iterate
import Remote8008.Lib.Machine
import Remote8008.Source.Dhcp8008
import Remote8008.Source.UdpReceive

/-!
# The firmware's main loop

Source: firmware/main.c:31-166,232-330 with `udp_start` of firmware/udp.c:786-808. The
loop runs forever in the source; here it stops after `rounds` leases, or when one
acquisition takes more than `patience` runs of `dhcp_run`. Both bounds are arbitrary,
so every moment of an execution lies inside a bounded one.

Left out are printing, the MDIO traffic around the PHY and the waits between retries,
during which nothing is received. The write of the leased address to the `eb_ip`
register is left out as well: no firmware code reads it back.
-/

namespace Remote8008.Source.Main
open Lib.Memory Firmware UdpTransmit EbServe UdpReceive Dhcp8008 Eb8008

def chaddrEtherbone : Mac := #v[0x10, 0xe2, 0xd5, 0x00, 0x00, 0x01]
def macEthmac : Mac := #v[0x10, 0xe2, 0xd5, 0x00, 0x00, 0x02]
def dhcpMaxTries : Nat := 5
def dhcpReplyTimeoutLoops : Nat := 200000
def ebServeLoopsPerSec : Nat := 400000

/-- The generator behind `next_xid`, on 32 bits. -/
def nextXid (x : UInt32) : UInt32 := x * 1103515245 + 12345

structure Lease where
  ip : UInt32
  secs : UInt32
  deriving DecidableEq, Repr

variable {σ : Type}

/-! ## Acquiring a lease -/

/-- A DHCP message built in the transmit buffer and sent. -/
def sendDhcp (w : World σ) (message : List UInt8) : Bool × World σ :=
  udpSend (w.setTxbuffer (store w.txbuffer payloadOffset message)) dhcpClientPort dhcpServerPort
    message.length

/-- The polls of `wait_for_reply`, with those left. -/
def awaitReply : Nat → World σ → Bool × World σ
  | 0, w => (false, w)
  | left + 1, w =>
    let w := udpService w
    if w.rxGot then (true, w) else awaitReply left w

def waitForReply (w : World σ) : Bool × World σ :=
  awaitReply dhcpReplyTimeoutLoops { w with rxGot := false }

/-- What the callback left in `rx_msgbuf`. -/
def stashedReply (w : World σ) : List UInt8 := load w.rxMsgbuf 0 w.rxMsglen

/-- One message and the wait for its answer: `udp_set_ip(0)`, the send, then the
filter opened for the broadcast answer. -/
def exchange (w : World σ) (message : List UInt8) : Bool × World σ :=
  match sendDhcp (udpSetIp w 0) message with
  | (false, w) => (false, w)
  | (true, w) => waitForReply (udpSetIp w limitedBroadcast)

/-- A parse that leaves its buffer ends the attempt, and is recorded. -/
def parsed (w : World σ) (result : Except Fault (Option Reply)) : Option Reply × World σ :=
  match result with
  | .ok reply => (reply, w)
  | .error fault => (none, w.log (.fault fault))

/-- The second half of an attempt, after an offer. -/
def requestLease (w : World σ) (xid : UInt32) (offer : Reply) : Option Lease × World σ :=
  match exchange w (dhcpBuildRequest chaddrEtherbone xid offer.ip offer.server) with
  | (false, w) => (none, w)
  | (true, w) =>
    match parsed w (dhcpParseAck (stashedReply w) xid) with
    | (none, w) => (none, w)
    | (some ack, w) =>
      if ack.ip ≠ offer.ip then (none, w)
      else (some ⟨ack.ip, if ack.leaseSecs ≠ 0 then ack.leaseSecs else 3600⟩, w)

def dhcpAttempt (w : World σ) : Option Lease × World σ :=
  let xid := nextXid w.xid
  match exchange { w with xid := xid } (dhcpBuildDiscover chaddrEtherbone xid) with
  | (false, w) => (none, w)
  | (true, w) =>
    match parsed w (dhcpParseOffer (stashedReply w) xid) with
    | (none, w) => (none, w)
    | (some offer, w) => requestLease w xid offer

/-- `for (attempt = 0; attempt < DHCP_MAX_TRIES; attempt++)`, with the attempts left. -/
def dhcpTries : Nat → World σ → Option Lease × World σ
  | 0, w => (none, udpSetCallback w none)
  | left + 1, w =>
    match dhcpAttempt w with
    | (some lease, w) => (some lease, udpSetCallback w none)
    | (none, w) => dhcpTries left w

def dhcpRun (w : World σ) : Option Lease × World σ :=
  dhcpTries dhcpMaxTries (udpSetCallback w (some .dhcp))

/-- `while (!dhcp_run(&ip, &lease_secs))`. -/
def acquire : Nat → World σ → Option Lease × World σ
  | 0, w => (none, w)
  | patience + 1, w =>
    match dhcpRun w with
    | (some lease, w) => (some lease, w)
    | (none, w) => acquire patience w

/-! ## Serving -/

/-- `for (i = 0; i < EB_SERVE_LOOPS_PER_SEC; i++)`. -/
def serveLoop (bus : Bus σ) (count : Nat) : World σ → World σ :=
  (fun w => ebServePending bus (udpService w))^[count]

def gateway (ip : UInt32) : UInt32 := (ip &&& 0xffffff00) ||| 1

def serveTick (bus : Bus σ) (ip : UInt32) (s : Nat) (w : World σ) : World σ :=
  let w := if s % 30 = 0 then udpAnnounceArp w else w
  let w := if s % 10 = 1 then (udpArpRefresh (gateway ip) w).2 else w
  serveLoop bus ebServeLoopsPerSec w

/-- `for (s = 0; s < lease_secs / 2; s++)`. -/
def serveTicks (bus : Bus σ) (ip : UInt32) (ticks : Nat) (w : World σ) : World σ :=
  Lib.Machine.run (fun w s => serveTick bus ip s w) w (List.range ticks)

def openServing (ip : UInt32) (w : World σ) : World σ :=
  let w := udpSetIp w ip
  let w := udpSetCallback w (some .eb)
  let w := udpSetBroadcastCallback w (some .eb)
  w.log (.phase (.serving ip))

def closeServing (w : World σ) : World σ := (udpSetCallback w none).log (.phase .acquiring)

/-- From the new lease to its half-life. -/
def serve (bus : Bus σ) (lease : Lease) (w : World σ) : World σ :=
  let w := udpAnnounceArp (openServing lease.ip w)
  closeServing (serveTicks bus lease.ip (lease.secs.toNat / 2) w)

def leaseLoop (bus : Bus σ) (patience : Nat) : Nat → World σ → World σ
  | 0, w => w
  | rounds + 1, w =>
    match acquire patience (udpSetBroadcast w) with
    | (none, w) => w
    | (some lease, w) => leaseLoop bus patience rounds (serve bus lease w)

/-! ## Power-up -/

/-- One round of the loopback test, with its 20000 polls. -/
def loopback (w : World σ) : World σ :=
  let xid := nextXid w.xid
  udpService^[20000] (sendDhcp (udpSetIp { w with xid := xid } 0)
    (dhcpBuildDiscover chaddrEtherbone xid)).2

def udpStart (w : World σ) (mac : Mac) (ip : UInt32) : World σ :=
  { w with
    myIp := ip
    myMac := mac
    cachedIp := 0
    cachedMac := Mac.zero
    txslot := 0
    rxCallback := none
    bxCallback := none }

/-- The statics before `main`. -/
def powerUp (bus : σ) (inbox : List (Option RxFrame)) (txSlots : Nat → Mem) : World σ where
  bus := bus
  inbox := inbox
  myMac := Mac.zero
  myIp := 0
  cachedMac := Mac.zero
  cachedIp := 0
  lastSrcMac := Mac.zero
  rxCallback := none
  bxCallback := none
  txSlots := txSlots
  txslot := 0
  ebPending := false
  ebStash := ⟨Mac.zero, 0, 0, 0, []⟩
  rxGot := false
  rxMsgbuf := fun _ => 0
  rxMsglen := 0
  xid := 0x8008a5a5
  trace := []

/-- `phy` says whether `phy_scan` found the PHY, on which the loopback test depends. -/
def main (bus : Bus σ) (phy : Bool) (patience rounds : Nat) (w : World σ) : World σ :=
  let w := udpSetBroadcast (udpStart (w.log (.phase .acquiring)) macEthmac 0)
  let w := if phy then loopback (loopback (loopback w)) else w
  leaseLoop bus patience rounds w

end Remote8008.Source.Main
