import Remote8008.Source.EbServe

/-!
# The receive side of the UDP stack

Source: firmware/udp.c:241-286,307-315,347-395,563-703,721-784,810-819 and the DHCP
callback of firmware/main.c:63-79. A frame is dispatched by EtherType, address filter and
protocol; UDP ends in one of the two callbacks. `udp_arp_resolve` polls the same
receive path while it waits.

An ICMP echo reply only prints and clears a ping time that is never set, so it has
no effect here; that branch and the counters of `process_frame` are in `UdpPing`.
-/

namespace Remote8008.Source.UdpReceive
open Lib.Memory Firmware UdpTransmit EbServe

variable {σ : Type}

def dhcpClientPort : UInt16 := 68
def dhcpServerPort : UInt16 := 67

/-- `sizeof(rx_msgbuf)`. -/
def rxMsgbufSize : Nat := 364

def dhcpRxCallback (w : World σ) (d : Datagram) : World σ :=
  if d.dstPort ≠ dhcpClientPort ∨ d.srcPort ≠ dhcpServerPort then w
  else
    let length := if d.data.length > rxMsgbufSize then rxMsgbufSize else d.data.length
    { w with
      rxMsgbuf := store w.rxMsgbuf 0 (d.data.take length)
      rxMsglen := length
      rxGot := true }

def invoke (w : World σ) (d : Datagram) (target : Callback) : World σ :=
  let w := w.log (.callback target d)
  match target with
  | .dhcp => dhcpRxCallback w d
  | .eb => ebRxCallback w d

/-! ## Frames -/

def srcMac (f : RxFrame) : Mac := loadMac f.raw 6
def ethertype (f : RxFrame) : UInt16 := load16 f.raw 12
def ipVersion (f : RxFrame) : UInt8 := f.raw 14
def ipTotalLength (f : RxFrame) : Nat := (load16 f.raw 16).toNat
def ipProto (f : RxFrame) : UInt8 := f.raw 23
def ipSrc (f : RxFrame) : UInt32 := load32 f.raw 26
def ipDst (f : RxFrame) : UInt32 := load32 f.raw 30
def udpLength (f : RxFrame) : Nat := (load16 f.raw 38).toNat

def datagram (f : RxFrame) : Datagram :=
  ⟨ipSrc f, load16 f.raw 34, load16 f.raw 36, load f.raw 42 (udpLength f - 8)⟩

def processArp (f : RxFrame) (w : World σ) : World σ :=
  if f.len < arpPacketLength then w
  else if load16 f.raw 14 ≠ arpHwtypeEthernet then w
  else if load16 f.raw 16 ≠ arpProtoIp then w
  else if f.raw 18 ≠ 6 then w
  else if f.raw 19 ≠ 4 then w
  else if load16 f.raw 20 = arpOpcodeReply then
    if load32 f.raw 28 = w.cachedIp then { w with cachedMac := loadMac f.raw 22 } else w
  else if load16 f.raw 20 = arpOpcodeRequest then
    if load32 f.raw 38 = w.myIp then
      sendArp w (loadMac f.raw 22) arpOpcodeReply (loadMac f.raw 22) (load32 f.raw 28)
    else w
  else w

def icmpEcho : UInt8 := 0x08
def icmpEchoReply : UInt8 := 0x00
def sizeofIcmpFrame : Nat := 28

/-- The echo reply assembled in the transmit slot. -/
def icmpFrame (f : RxFrame) (w : World σ) (length : Nat) : Mem :=
  let m := fillEthHeader w.txbuffer (srcMac f) w.myMac ethertypeIp
  let m := putIpHeader m (length + sizeofIcmpFrame) ipProtoIcmp w.myIp (load f.raw 26 4)
  let m := store8 m 34 icmpEchoReply
  let m := store8 m 35 0
  let m := store m 38 (load f.raw 38 2)
  let m := store m 40 (load f.raw 40 2)
  let m := store m 42 (load f.raw 42 length)
  let m := store16 m 36 0
  store16 m 36 (UInt16.ofNat (ipChecksum 0 m 34 (length + 8) true))

def processIcmp (f : RxFrame) (w : World σ) : World σ :=
  if f.len < sizeofEthernetHeader + sizeofIcmpFrame then w
  else if ipTotalLength f < sizeofIcmpFrame then w
  else if sizeofEthernetHeader + ipTotalLength f > f.len then w
  else
    let length := ipTotalLength f - sizeofIcmpFrame
    if f.raw 34 = icmpEcho then
      sendPacket (w.setTxbuffer (icmpFrame f w length))
        (length + sizeofEthernetHeader + sizeofIcmpFrame)
    else w

/-- The callback `process_udp` chooses for a destination address. -/
def chosenCallback (w : World σ) (dst : UInt32) : Option Callback :=
  if dst ≠ w.myIp then
    if dst = limitedBroadcast ∨ dst = w.myIp ||| 0xff then w.bxCallback else none
  else w.rxCallback <|> w.bxCallback

def processUdp (f : RxFrame) (w : World σ) : World σ :=
  if f.len < sizeofEthernetHeader + sizeofUdpFrame then w
  else if ipTotalLength f < sizeofUdpFrame then w
  else if sizeofEthernetHeader + ipTotalLength f > f.len then w
  else if ipProto f ≠ ipProtoUdp then w
  else if udpLength f < 8 then w
  else if udpLength f > ipTotalLength f - 20 then w
  else
    let w := { w with lastSrcMac := srcMac f }
    match chosenCallback w (ipDst f) with
    | some target => invoke w (datagram f) target
    | none => w

def processFrame (f : RxFrame) (w : World σ) : World σ :=
  if f.len < sizeofEthernetHeader then w
  else if f.len > ethmacSlotSize then w
  else if ethertype f = ethertypeArp then processArp f w
  else if ethertype f = ethertypeIp then
    if ipVersion f ≠ ipIpv4 then w
    else if ipDst f ≠ w.myIp ∧ ipDst f ≠ limitedBroadcast ∧ ipDst f ≠ w.myIp ||| 0xff then w
    else if ipProto f = ipProtoUdp then processUdp f w
    else if ipProto f = ipProtoIcmp then processIcmp f w
    else w
  else w

/-- One poll. An exhausted inbox is a silent network. -/
def udpService (w : World σ) : World σ :=
  match w.inbox with
  | [] => w
  | none :: rest => { w with inbox := rest }
  | some f :: rest => processFrame f { w with inbox := rest, trace := w.trace ++ [.frame f] }

/-! ## Address resolution -/

/-- `for(timeout=0;timeout<100000;timeout++)`, with the polls left. -/
def awaitArpReply : Nat → World σ → Bool × World σ
  | 0, w => (false, w)
  | left + 1, w =>
    let w := udpService w
    if w.cachedMac ≠ Mac.zero then (true, w) else awaitArpReply left w

/-- `for(tries=0;tries<8;tries++)`, with the tries left. -/
def arpTries (ip : UInt32) : Nat → World σ → Bool × World σ
  | 0, w => (false, w)
  | left + 1, w =>
    match awaitArpReply 100000 (sendArp w Mac.broadcast arpOpcodeRequest Mac.zero ip) with
    | (true, w) => (true, w)
    | (false, w) => arpTries ip left w

def udpArpResolve (ip : UInt32) (w : World σ) : Bool × World σ :=
  if w.cachedIp = ip ∧ w.cachedMac ≠ Mac.zero then (true, w)
  else arpTries ip 8 { w with cachedIp := ip, cachedMac := Mac.zero }

def udpArpRefresh (ip : UInt32) (w : World σ) : Bool × World σ :=
  udpArpResolve ip { w with cachedIp := 0 }

end Remote8008.Source.UdpReceive
