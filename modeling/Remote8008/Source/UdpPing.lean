import Remote8008.Source.UdpReceive

/-!
# Replies to pings, and the bring-up counters

Source: firmware/udp.c:490-491,563-578,620-649,718-784, built without
`CSR_TIMER0_UPTIME_CYCLES_ADDR`. The branch of `process_icmp` for echo replies changes
nothing but the two variables of `send_ping` and prints a line. Nothing in the firmware
calls `send_ping`, and nothing reads the counters `process_frame` keeps of the frames it
sees, so both are kept apart from the rest of the receive path; the tests in front of
them are the same.
-/

namespace Remote8008.Source.UdpPing
open Lib.Memory Firmware UdpTransmit UdpReceive

/-- `ping_seq_number` and `ping_ts_send`. -/
structure Ping where
  seqNumber : UInt32
  tsSend : UInt64
  deriving DecidableEq, Repr

/-- An `unsigned short` read without `ntohs` on the little-endian CPU. -/
def loadShort (m : Mem) (start : Nat) : Nat := (m start).toNat + 256 * (m (start + 1)).toNat

def icmpIdentifier (f : RxFrame) : Nat := loadShort f.raw 38
def icmpSequenceNumber (f : RxFrame) : Nat := loadShort f.raw 40

def pingIdentifier : Nat := 0xbe7c

/-- The branch for echo replies, with what it prints. -/
def processEchoReply (f : RxFrame) (p : Ping) : Ping × String :=
  let length := ipTotalLength f - sizeofIcmpFrame
  let line := s!"{length} bytes from {f.raw 26}.{f.raw 27}.{f.raw 28}.{f.raw 29}: "
  if icmpSequenceNumber f ≠ p.seqNumber.toNat then
    (p, line ++ s!"invalid sequence number {icmpSequenceNumber f}")
  else if icmpIdentifier f ≠ pingIdentifier then
    (p, line ++ s!"invalid identifier {icmpIdentifier f}")
  else ({ p with tsSend := 0 }, line ++ s!"icmp_seq={icmpSequenceNumber f}" ++ "\n")

/-- `process_icmp`, as far as it concerns pings. -/
def processIcmpPing (f : RxFrame) (p : Ping) : Ping × String :=
  if f.len < sizeofEthernetHeader + sizeofIcmpFrame then (p, "")
  else if ipTotalLength f < sizeofIcmpFrame then (p, "")
  else if sizeofEthernetHeader + ipTotalLength f > f.len then (p, "")
  else if f.raw 34 = icmpEcho then (p, "")
  else if f.raw 34 = icmpEchoReply then processEchoReply f p
  else (p, "")

/-- `process_frame`, as far as it concerns pings, on a board with `my_ip = myIp`. -/
def processFramePing (f : RxFrame) (myIp : UInt32) (p : Ping) : Ping × String :=
  if f.len < sizeofEthernetHeader then (p, "")
  else if f.len > ethmacSlotSize then (p, "")
  else if ethertype f = ethertypeArp then (p, "")
  else if ethertype f = ethertypeIp then
    if ipVersion f ≠ ipIpv4 then (p, "")
    else if ipDst f ≠ myIp ∧ ipDst f ≠ limitedBroadcast ∧ ipDst f ≠ myIp ||| 0xff then (p, "")
    else if ipProto f = ipProtoUdp then (p, "")
    else if ipProto f = ipProtoIcmp then processIcmpPing f p
    else (p, "")
  else (p, "")

/-! ## The counters -/

/-- `dbg_rx_frames`, `dbg_rx_short`, `dbg_rx_arp` and `dbg_rx_ip`. -/
structure RxCounters where
  frames : UInt32
  short : UInt32
  arp : UInt32
  ip : UInt32
  deriving DecidableEq, Repr

/-- `dbg_ip_tome`, `dbg_ip_bcast` and `dbg_ip_other`. -/
structure IpCounters where
  tome : UInt32
  bcast : UInt32
  other : UInt32
  deriving DecidableEq, Repr

/-- `process_frame`, as far as it concerns `dbg_rx_*`. -/
def processFrameRx (f : RxFrame) (c : RxCounters) : RxCounters :=
  let c := { c with frames := c.frames + 1 }
  if f.len < sizeofEthernetHeader then { c with short := c.short + 1 }
  else if f.len > ethmacSlotSize then c
  else if ethertype f = ethertypeArp then { c with arp := c.arp + 1 }
  else if ethertype f = ethertypeIp then { c with ip := c.ip + 1 }
  else c

/-- The block between `dbg_rx_ip++` and the test of the version. -/
def countDestination (dip myIp : UInt32) (c : IpCounters) : IpCounters :=
  if dip = myIp then { c with tome := c.tome + 1 }
  else if dip &&& 0xff = 0xff then { c with bcast := c.bcast + 1 }
  else { c with other := c.other + 1 }

/-- `process_frame`, as far as it concerns `dbg_ip_*`. -/
def processFrameIp (f : RxFrame) (myIp : UInt32) (c : IpCounters) : IpCounters :=
  if f.len < sizeofEthernetHeader then c
  else if f.len > ethmacSlotSize then c
  else if ethertype f = ethertypeArp then c
  else if ethertype f = ethertypeIp then countDestination (ipDst f) myIp c
  else c

end Remote8008.Source.UdpPing
