import Remote8008.Source.Firmware

/-!
# The transmit side of the UDP stack

Source: firmware/udp.c:40-62,156-237,292-345,397-488,705-714, built with
`HW_PREAMBLE_CRC` and `ETH_UDP_BROADCAST`. Frames are assembled in the current
transmit slot by stores at the offsets of the packed structures; multi-byte fields
are in network order.
-/

namespace Remote8008.Source.UdpTransmit
open Lib.Memory Firmware

def ethertypeArp : UInt16 := 0x0806
def ethertypeIp : UInt16 := 0x0800
def arpHwtypeEthernet : UInt16 := 0x0001
def arpProtoIp : UInt16 := 0x0800
def arpPacketLength : Nat := 60
def arpOpcodeRequest : UInt16 := 0x0001
def arpOpcodeReply : UInt16 := 0x0002
def ipIpv4 : UInt8 := 0x45
def ipDontFragment : UInt16 := 0x4000
def ipTtl : UInt8 := 64
def ipProtoUdp : UInt8 := 0x11
def ipProtoIcmp : UInt8 := 0x01
def ethmacTxSlots : Nat := 2
def ethmacSlotSize : Nat := 2048
def limitedBroadcast : UInt32 := 0xffffffff

/-- `sizeof(struct ethernet_header)`, `sizeof(struct udp_frame)`. -/
def sizeofEthernetHeader : Nat := 14
def sizeofUdpFrame : Nat := 28

variable {σ : Type}

def fillEthHeader (m : Mem) (destmac srcmac : Mac) (ethertype : UInt16) : Mem :=
  store16 (storeMac (storeMac m 0 destmac) 6 srcmac) 12 ethertype

/-- Short frames are zero-padded to 100 bytes. -/
def padded (m : Mem) (txlen : Nat) : Mem × Nat :=
  if txlen < 100 then (store m txlen (List.replicate (100 - txlen) 0), 100) else (m, txlen)

def sendPacket (w : World σ) (txlen : Nat) : World σ :=
  let (m, txlen) := padded w.txbuffer txlen
  let w := (w.setTxbuffer m).log (.transmit (load m 0 txlen))
  { w with txslot := (w.txslot + 1) % ethmacTxSlots }

def udpSetIp (w : World σ) (ip : UInt32) : World σ := { w with myIp := ip }

def udpSetBroadcast (w : World σ) : World σ :=
  { w with cachedMac := Mac.broadcast, cachedIp := limitedBroadcast }

def udpSetPeer (w : World σ) (ip : UInt32) (mac : Mac) : World σ :=
  { w with cachedIp := ip, cachedMac := mac }

def udpSetCallback (w : World σ) (callback : Option Callback) : World σ :=
  { w with rxCallback := callback }

def udpSetBroadcastCallback (w : World σ) (callback : Option Callback) : World σ :=
  { w with bxCallback := callback }

/-- The ARP frame `process_arp`, `udp_announce_arp` and `udp_arp_resolve` send, with
the fields in which they differ. -/
def sendArp (w : World σ) (destmac : Mac) (opcode : UInt16) (targetMac : Mac)
    (targetIp : UInt32) : World σ :=
  let m := fillEthHeader w.txbuffer destmac w.myMac ethertypeArp
  let m := store16 m 14 arpHwtypeEthernet
  let m := store16 m 16 arpProtoIp
  let m := store8 m 18 6
  let m := store8 m 19 4
  let m := store16 m 20 opcode
  let m := storeMac m 22 w.myMac
  let m := store32 m 28 w.myIp
  let m := storeMac m 32 targetMac
  let m := store32 m 38 targetIp
  let m := store m 42 (List.replicate 18 0)
  sendPacket (w.setTxbuffer m) arpPacketLength

def udpAnnounceArp (w : World σ) : World σ :=
  if w.myIp = 0 ∨ w.myIp = limitedBroadcast then w
  else sendArp w Mac.broadcast arpOpcodeRequest Mac.zero w.myIp

/-! ## Checksums -/

/-- `r += (ptr[2*i] << 8) | ptr[2*i+1]`, with the words left. Lengths are 16-bit, so
the 32-bit accumulator does not wrap. -/
def addWords (m : Mem) : Nat → Nat → Nat → Nat
  | _, 0, r => r
  | start, words + 1, r =>
    addWords m (start + 2) words (r + (256 * (m start).toNat + (m (start + 1)).toNat))

/-- `while(r >> 16)`: each round makes `r` smaller, so `r` rounds are enough. -/
def foldCarries : Nat → Nat → Nat
  | 0, r => r
  | fuel + 1, r => if r / 2 ^ 16 = 0 then r else foldCarries fuel (r % 2 ^ 16 + r / 2 ^ 16)

/-- A trailing odd byte is not summed. After the fold `~r & 0xffff` is `0xffff - r`. -/
def ipChecksum (r : Nat) (m : Mem) (start length : Nat) (complete : Bool) : Nat :=
  let r := addWords m start (length / 2) r
  let r := foldCarries r r
  if complete then if 0xffff - r = 0 then 0xffff else 0xffff - r else r

/-- The IP header `udp_send` and `process_icmp` write at offset 14. -/
def putIpHeader (m : Mem) (totalLength : Nat) (proto : UInt8) (srcIp : UInt32)
    (dstIp : List UInt8) : Mem :=
  let m := store8 m 14 ipIpv4
  let m := store8 m 15 0
  let m := store16 m 16 (UInt16.ofNat totalLength)
  let m := store16 m 18 0
  let m := store16 m 20 ipDontFragment
  let m := store8 m 22 ipTtl
  let m := store8 m 23 proto
  let m := store16 m 24 0
  let m := store32 m 26 srcIp
  let m := store m 30 dstIp
  store16 m 24 (UInt16.ofNat (ipChecksum 0 m 14 20 true))

/-- `struct pseudo_header`. -/
def pseudoHeader (srcIp dstIp : UInt32) (udpLength : Nat) : Mem :=
  let m := store32 (fun _ => 0) 0 srcIp
  let m := store32 m 4 dstIp
  let m := store8 m 8 0
  let m := store8 m 9 ipProtoUdp
  store16 m 10 (UInt16.ofNat udpLength)

def maxPayload : Nat := ethmacSlotSize - sizeofEthernetHeader - sizeofUdpFrame

/-- Offset of `udp_get_tx_buffer()` in the transmit slot. -/
def payloadOffset : Nat := 42

/-- The frame around the payload already in the slot. -/
def udpFrame (w : World σ) (srcPort dstPort : UInt16) (length : Nat) : Mem :=
  let m := fillEthHeader w.txbuffer w.cachedMac w.myMac ethertypeIp
  let m := putIpHeader m (length + sizeofUdpFrame) ipProtoUdp w.myIp
    (Lib.BigEndian.be32 w.cachedIp)
  let m := store16 m 34 srcPort
  let m := store16 m 36 dstPort
  let m := store16 m 38 (UInt16.ofNat (length + 8))
  let m := store16 m 40 0
  let r := ipChecksum 0 (pseudoHeader w.myIp w.cachedIp (length + 8)) 0 12 false
  let m := if length % 2 = 1 then store8 m (payloadOffset + length) 0 else m
  let even := length + length % 2
  store16 m 40 (UInt16.ofNat (ipChecksum r m 34 (8 + even) true))

/-- `txlen` of a datagram, at least the length of an ARP packet. -/
def udpTxlen (length : Nat) : Nat :=
  let txlen := length + sizeofEthernetHeader + sizeofUdpFrame
  if txlen < arpPacketLength then arpPacketLength else txlen

/-- Refuses without a peer MAC and when the payload does not fit the slot. -/
def udpSend (w : World σ) (srcPort dstPort : UInt16) (length : Nat) : Bool × World σ :=
  if w.cachedMac = Mac.zero then (false, w)
  else if length > maxPayload then (false, w)
  else (true, sendPacket (w.setTxbuffer (udpFrame w srcPort dstPort length)) (udpTxlen length))

end Remote8008.Source.UdpTransmit
