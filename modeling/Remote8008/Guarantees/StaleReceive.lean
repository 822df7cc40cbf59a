import Remote8008.Guarantees.EchoAnswers
import Remote8008.Source.UdpPing

/-!
# Stale bytes in the receive slot

firmware/udp.c:241-286,563-703,721-784. The MAC reports a length; behind it the slot still
holds earlier frames. `process_frame` looks at the IP version, destination and protocol
before any branch has tested the length, but a frame too short for those fields is too
short for every branch. Whatever is used lies within the reported length. Only the
counters of destinations take a leftover for an address.
-/

namespace Remote8008.Guarantees.StaleReceive
open Lib.Memory Lib.BigEndian Source.Firmware Source.UdpTransmit Source.UdpReceive Source.UdpPing
open FirmwareEffects FrameDispatch

variable {σ : Type}

/-- Two receptions of the same frame, over slots with different leftovers. -/
structure SameFrame (f f' : RxFrame) : Prop where
  len : f.len = f'.len
  bytes : ∀ i < f.len, f.raw i = f'.raw i

namespace SameFrame

variable {f f' : RxFrame} (same : SameFrame f f')
include same

theorem symm : SameFrame f' f :=
  ⟨same.len.symm, fun i inside => (same.bytes i (same.len ▸ inside)).symm⟩

theorem load_eq {start count : Nat} (inside : start + count ≤ f.len) :
    load f.raw start count = load f'.raw start count :=
  load_congr fun i _ high => same.bytes i (by omega)

theorem load16_eq {start : Nat} (inside : start + 2 ≤ f.len) :
    load16 f.raw start = load16 f'.raw start := by
  rw [load16, load16, same.load_eq inside]

theorem load32_eq {start : Nat} (inside : start + 4 ≤ f.len) :
    load32 f.raw start = load32 f'.raw start := by
  rw [load32, load32, same.load_eq inside]

theorem loadMac_eq {start : Nat} (inside : start + 6 ≤ f.len) :
    loadMac f.raw start = loadMac f'.raw start := by
  have byte : ∀ k < 6, f.raw (start + k) = f'.raw (start + k) :=
    fun k small => same.bytes _ (by omega)
  rw [loadMac, loadMac, byte 1 (by decide), byte 2 (by decide), byte 3 (by decide),
    byte 4 (by decide), byte 5 (by decide), same.bytes start (by omega)]

/-! ## The tests -/

theorem wellFormedArp (shape : WellFormedArp f) : WellFormedArp f' := by
  have low := shape.low
  have length : arpPacketLength = 60 := rfl
  constructor
  · rw [← same.len]
    exact shape.low
  · rw [← same.len]
    exact shape.high
  · exact (same.load16_eq (by omega)).symm.trans shape.ethertype
  · exact (same.load16_eq (by omega)).symm.trans shape.hwtype
  · exact (same.load16_eq (by omega)).symm.trans shape.proto
  · exact (same.bytes 18 (by omega)).symm.trans shape.hwsize
  · exact (same.bytes 19 (by omega)).symm.trans shape.protosize

theorem arpReplyFrom {ip : UInt32} (reply : ArpReplyFrom ip f) : ArpReplyFrom ip f' := by
  have low := reply.low
  have length : arpPacketLength = 60 := rfl
  exact ⟨same.wellFormedArp reply.toWellFormedArp,
    (same.load16_eq (by omega)).symm.trans reply.opcode,
    (same.load32_eq (by omega)).symm.trans reply.senderIp⟩

theorem arpRequestFor {ip : UInt32} (request : ArpRequestFor ip f) : ArpRequestFor ip f' := by
  have low := request.low
  have length : arpPacketLength = 60 := rfl
  exact ⟨same.wellFormedArp request.toWellFormedArp,
    (same.load16_eq (by omega)).symm.trans request.opcode,
    (same.load32_eq (by omega)).symm.trans request.targetIp⟩

theorem ipTotalLength_eq (inside : 18 ≤ f.len) : ipTotalLength f = ipTotalLength f' := by
  rw [ipTotalLength, ipTotalLength, same.load16_eq inside]

theorem wellFormedIcmp {ip : UInt32} (shape : WellFormedIcmp ip f) : WellFormedIcmp ip f' := by
  have low := shape.low
  have sizes : sizeofEthernetHeader = 14 ∧ sizeofIcmpFrame = 28 := ⟨rfl, rfl⟩
  have total := same.ipTotalLength_eq (by omega)
  have dest : ipDst f = ipDst f' := same.load32_eq (by omega)
  constructor
  · rw [← same.len]
    exact low
  · rw [← same.len]
    exact shape.high
  · exact (same.load16_eq (by omega)).symm.trans shape.ethertype
  · exact (same.bytes 14 (by omega)).symm.trans shape.version
  · rw [← dest]
    exact shape.addressed
  · exact (same.bytes 23 (by omega)).symm.trans shape.proto
  · rw [← total]
    exact shape.totalLow
  · rw [← total, ← same.len]
    exact shape.totalHigh

theorem icmpOfType {ip : UInt32} {type : UInt8} (message : WellFormedIcmp ip f ∧ f.raw 34 = type) :
    WellFormedIcmp ip f' ∧ f'.raw 34 = type := by
  obtain ⟨shape, isType⟩ := message
  have low := shape.low
  have sizes : sizeofEthernetHeader = 14 ∧ sizeofIcmpFrame = 28 := ⟨rfl, rfl⟩
  exact ⟨same.wellFormedIcmp shape, (same.bytes 34 (by omega)).symm.trans isType⟩

theorem echoRequestFor {ip : UInt32} (request : EchoRequestFor ip f) : EchoRequestFor ip f' := by
  rw [echoRequestFor_iff] at request ⊢
  exact same.icmpOfType request

theorem wellFormedUdp (shape : WellFormedUdp f) : WellFormedUdp f' := by
  have low := shape.low
  have sizes : sizeofEthernetHeader = 14 ∧ sizeofUdpFrame = 28 := ⟨rfl, rfl⟩
  have total := same.ipTotalLength_eq (by omega)
  have length : udpLength f = udpLength f' := by
    rw [udpLength, udpLength, same.load16_eq (by omega)]
  constructor
  · rw [← same.len]
    exact low
  · rw [← same.len]
    exact shape.high
  · exact (same.load16_eq (by omega)).symm.trans shape.ethertype
  · exact (same.bytes 14 (by omega)).symm.trans shape.version
  · exact (same.bytes 23 (by omega)).symm.trans shape.proto
  · rw [← total]
    exact shape.totalLow
  · rw [← total, ← same.len]
    exact shape.totalHigh
  · rw [← length]
    exact shape.udpLow
  · rw [← length, ← total]
    exact shape.udpHigh

/-! ## What is done with the frame -/

theorem arpAnswer_eq {ip : UInt32} (request : ArpRequestFor ip f) (w : World σ) :
    arpAnswer f w = arpAnswer f' w := by
  have low := request.low
  have length : arpPacketLength = 60 := rfl
  rw [arpAnswer, arpAnswer, same.loadMac_eq (by omega), same.load32_eq (by omega)]

theorem echoAnswer_eq {ip : UInt32} (request : EchoRequestFor ip f) (w : World σ) :
    echoAnswer f w = echoAnswer f' w := by
  have low := request.low
  have totalLow := request.totalLow
  have totalHigh := request.totalHigh
  have sizes : sizeofEthernetHeader = 14 ∧ sizeofIcmpFrame = 28 := ⟨rfl, rfl⟩
  have source : srcMac f = srcMac f' := same.loadMac_eq (by omega)
  have frame : icmpFrame f w (ipTotalLength f - sizeofIcmpFrame) =
      icmpFrame f' w (ipTotalLength f - sizeofIcmpFrame) := by
    simp only [icmpFrame, source, same.load_eq (show 26 + 4 ≤ f.len by omega),
      same.load_eq (show 38 + 2 ≤ f.len by omega), same.load_eq (show 40 + 2 ≤ f.len by omega),
      same.load_eq (show 42 + (ipTotalLength f - sizeofIcmpFrame) ≤ f.len by omega)]
  rw [echoAnswer, echoAnswer, frame, same.ipTotalLength_eq (by omega)]

theorem datagram_eq (shape : WellFormedUdp f) : datagram f = datagram f' := by
  have low := shape.low
  have totalHigh := shape.totalHigh
  have udpLow := shape.udpLow
  have udpHigh := shape.udpHigh
  have sizes : sizeofEthernetHeader = 14 ∧ sizeofUdpFrame = 28 := ⟨rfl, rfl⟩
  have length : udpLength f = udpLength f' := by
    rw [udpLength, udpLength, same.load16_eq (by omega)]
  have source : ipSrc f = ipSrc f' := same.load32_eq (by omega)
  rw [datagram, datagram, source, same.load16_eq (by omega), same.load16_eq (by omega),
    same.load_eq (by omega), length]

theorem deliverTo_eq (shape : WellFormedUdp f) (w : World σ) (choice : Option Callback) :
    deliverTo f w choice = deliverTo f' w choice := by
  have low := shape.low
  have sizes : sizeofEthernetHeader = 14 ∧ sizeofUdpFrame = 28 := ⟨rfl, rfl⟩
  have source : srcMac f = srcMac f' := same.loadMac_eq (by omega)
  cases choice with
  | none => rw [deliverTo, deliverTo, source]
  | some target => rw [deliverTo, deliverTo, source, same.datagram_eq shape]

theorem addressedUdp {ip : UInt32} (datagram : WellFormedUdp f ∧ AddressedTo ip (ipDst f)) :
    WellFormedUdp f' ∧ AddressedTo ip (ipDst f') := by
  obtain ⟨shape, addressed⟩ := datagram
  have low := shape.low
  have sizes : sizeofEthernetHeader = 14 ∧ sizeofUdpFrame = 28 := ⟨rfl, rfl⟩
  have dest : ipDst f = ipDst f' := same.load32_eq (by omega)
  exact ⟨same.wellFormedUdp shape, dest ▸ addressed⟩

theorem processFrame_congr (w : World σ) : processFrame f w = processFrame f' w := by
  by_cases reply : ArpReplyFrom w.cachedIp f
  · have low := reply.low
    have length : arpPacketLength = 60 := rfl
    rw [processFrame_learns reply, processFrame_learns (same.arpReplyFrom reply),
      same.loadMac_eq (by omega)]
  by_cases request : ArpRequestFor w.myIp f
  · rw [processFrame_answersArp request, processFrame_answersArp (same.arpRequestFor request),
      same.arpAnswer_eq request]
  by_cases echo : EchoRequestFor w.myIp f
  · rw [processFrame_answersEcho echo, processFrame_answersEcho (same.echoRequestFor echo),
      same.echoAnswer_eq echo]
  by_cases udp : WellFormedUdp f ∧ AddressedTo w.myIp (ipDst f)
  · obtain ⟨shape, addressed⟩ := udp
    obtain ⟨shape', addressed'⟩ := same.addressedUdp ⟨shape, addressed⟩
    have low := shape.low
    have sizes : sizeofEthernetHeader = 14 ∧ sizeofUdpFrame = 28 := ⟨rfl, rfl⟩
    have dest : ipDst f = ipDst f' := same.load32_eq (by omega)
    rw [processFrame_udp shape addressed, processFrame_udp shape' addressed', ← dest]
    exact same.deliverTo_eq shape w _
  · rw [processFrame_ignores reply request echo udp,
      processFrame_ignores (mt same.symm.arpReplyFrom reply)
        (mt same.symm.arpRequestFor request) (mt same.symm.echoRequestFor echo)
        (mt same.symm.addressedUdp udp)]

theorem processEchoReply_congr {ip : UInt32} (shape : WellFormedIcmp ip f) (p : Ping) :
    processEchoReply f p = processEchoReply f' p := by
  have low := shape.low
  have sizes : sizeofEthernetHeader = 14 ∧ sizeofIcmpFrame = 28 := ⟨rfl, rfl⟩
  have byte : ∀ i < 42, f.raw i = f'.raw i := fun i inside => same.bytes i (by omega)
  have total := same.ipTotalLength_eq (by omega)
  have identifier : icmpIdentifier f = icmpIdentifier f' := by
    rw [icmpIdentifier, icmpIdentifier, loadShort, loadShort, byte 38 (by decide),
      byte 39 (by decide)]
  have sequence : icmpSequenceNumber f = icmpSequenceNumber f' := by
    rw [icmpSequenceNumber, icmpSequenceNumber, loadShort, loadShort, byte 40 (by decide),
      byte 41 (by decide)]
  rw [processEchoReply, processEchoReply, identifier, sequence, total, byte 26 (by decide),
    byte 27 (by decide), byte 28 (by decide), byte 29 (by decide)]

theorem processFramePing_congr (myIp : UInt32) (p : Ping) :
    processFramePing f myIp p = processFramePing f' myIp p := by
  by_cases reply : WellFormedIcmp myIp f ∧ f.raw 34 = icmpEchoReply
  · obtain ⟨shape', type'⟩ := same.icmpOfType reply
    rw [processFramePing_replies reply.1 reply.2, processFramePing_replies shape' type',
      same.processEchoReply_congr reply.1]
  · rw [processFramePing_ignores reply, processFramePing_ignores (mt same.symm.icmpOfType reply)]

theorem processFrameRx_congr (c : RxCounters) : processFrameRx f c = processFrameRx f' c := by
  by_cases short : f.len < sizeofEthernetHeader
  · rw [processFrameRx, processFrameRx, if_pos short, if_pos (same.len ▸ short)]
  · have size : sizeofEthernetHeader = 14 := rfl
    have type : ethertype f = ethertype f' := same.load16_eq (by omega)
    rw [processFrameRx, processFrameRx, type, same.len]

end SameFrame

theorem processFrame_oversized {f : RxFrame} (long : ethmacSlotSize < f.len) (w : World σ) :
    processFrame f w = w := by
  apply processFrame_ignores
  · exact fun reply => Nat.not_le.mpr long reply.high
  · exact fun request => Nat.not_le.mpr long request.high
  · exact fun request => Nat.not_le.mpr long request.high
  · exact fun datagram => Nat.not_le.mpr long datagram.1.high

theorem processFramePing_oversized {f : RxFrame} (long : ethmacSlotSize < f.len) (myIp : UInt32)
    (p : Ping) : processFramePing f myIp p = (p, "") :=
  processFramePing_ignores (fun reply => Nat.not_le.mpr long reply.1.high) p

theorem processFrameRx_oversized {f : RxFrame} (long : ethmacSlotSize < f.len) (c : RxCounters) :
    processFrameRx f c = { c with frames := c.frames + 1 } := by
  have sizes : sizeofEthernetHeader ≤ ethmacSlotSize := by decide
  rw [processFrameRx, if_neg (by omega), if_pos long]

/-- Leftover bytes of the 2048-byte receive slot change nothing: neither the callbacks and
their arguments, nor the frames transmitted, nor the state after the frame, the variables
and the output of the ping code and the counters of frames included. -/
theorem stale_bytes_ignored (f f' : RxFrame) (len : f.len = f'.len)
    (agree : ∀ i < f.len, i < ethmacSlotSize → f.raw i = f'.raw i) (w : World σ) (p : Ping)
    (c : RxCounters) :
    processFrame f w = processFrame f' w ∧
      processFramePing f w.myIp p = processFramePing f' w.myIp p ∧
      processFrameRx f c = processFrameRx f' c := by
  by_cases fits : f.len ≤ ethmacSlotSize
  · have same : SameFrame f f' := ⟨len, fun i inside => agree i inside (by omega)⟩
    exact ⟨same.processFrame_congr w, same.processFramePing_congr w.myIp p,
      same.processFrameRx_congr c⟩
  · have long : ethmacSlotSize < f.len := Nat.not_le.mp fits
    have long' : ethmacSlotSize < f'.len := len ▸ long
    rw [processFrame_oversized long, processFrame_oversized long',
      processFramePing_oversized long, processFramePing_oversized long',
      processFrameRx_oversized long, processFrameRx_oversized long']
    exact ⟨rfl, rfl, rfl⟩

/-- A ping over a clean slot, and over one full of `0xff`. -/
theorem stale_bytes_ignored_ping :
    let f := EchoAnswers.ping [0x61]
    let f' : RxFrame := ⟨f.len, fun i => if i < f.len then f.raw i else 0xff⟩
    f.raw 43 ≠ f'.raw 43 ∧
      processFrame f RequestServer.listening = processFrame f' RequestServer.listening := by
  intro f f'
  refine ⟨by decide,
    (stale_bytes_ignored f f' rfl ?_ RequestServer.listening ⟨0, 0⟩ ⟨0, 0, 0, 0⟩).1⟩
  intro i inside _
  exact (if_pos inside).symm

/-! ## The counters of destinations -/

theorem countDestination_other {dip myIp : UInt32} (other : dip ≠ myIp) (c : IpCounters) :
    countDestination dip myIp c ≠ countDestination myIp myIp c := by
  have stays : (countDestination dip myIp c).tome = c.tome := by
    rw [countDestination, if_neg other]
    split <;> rfl
  have moves : (countDestination myIp myIp c).tome = c.tome + 1 := by
    rw [countDestination, if_pos rfl]
  intro same
  rw [same, moves] at stays
  simp at stays

/-- The frame in a slot with `ip` where the destination address would be. -/
def leftover (f : RxFrame) (ip : UInt32) : RxFrame := ⟨f.len, store32 f.raw 30 ip⟩

theorem leftover_same {f : RxFrame} (short : f.len ≤ 30) (ip : UInt32) :
    SameFrame f (leftover f ip) :=
  ⟨rfl, fun _ inside => (store_outside _ _ _ (.inl (by omega))).symm⟩

theorem ipDst_leftover (f : RxFrame) (ip : UInt32) : ipDst (leftover f ip) = ip :=
  (holds_store f.raw 30 (be32 ip)).load32

theorem processFrameIp_counts {f : RxFrame} (low : sizeofEthernetHeader ≤ f.len)
    (high : f.len ≤ ethmacSlotSize) (type : ethertype f = ethertypeIp) (myIp : UInt32)
    (c : IpCounters) : processFrameIp f myIp c = countDestination (ipDst f) myIp c := by
  rw [processFrameIp, if_neg (Nat.not_lt.mpr low), if_neg (Nat.not_lt.mpr high),
    if_neg (by rw [type]; decide), if_pos type]

/-- A frame that ends before its destination address is counted by what an earlier one has
left there. -/
theorem destination_counted_stale {f : RxFrame} (low : sizeofEthernetHeader ≤ f.len)
    (short : f.len ≤ 30) (type : ethertype f = ethertypeIp) (myIp : UInt32) (c : IpCounters) :
    ∃ f', SameFrame f f' ∧ processFrameIp f' myIp c ≠ processFrameIp f myIp c := by
  have size : sizeofEthernetHeader = 14 ∧ ethmacSlotSize = 2048 := ⟨rfl, rfl⟩
  have counts : ∀ ip, processFrameIp (leftover f ip) myIp c = countDestination ip myIp c := by
    intro ip
    have same := leftover_same short ip
    have type' : ethertype (leftover f ip) = ethertypeIp :=
      (same.load16_eq (by omega)).symm.trans type
    have high : (leftover f ip).len ≤ ethmacSlotSize := by
      rw [← same.len]
      omega
    rw [processFrameIp_counts (same.len ▸ low) high type', ipDst_leftover]
  have counted := processFrameIp_counts low (by omega) type myIp c
  by_cases mine : ipDst f = myIp
  · refine ⟨leftover f (myIp + 1), leftover_same short _, ?_⟩
    rw [counts, counted, mine]
    exact countDestination_other (by simp) c
  · refine ⟨leftover f myIp, leftover_same short _, ?_⟩
    rw [counts, counted]
    exact (countDestination_other mine c).symm

end Remote8008.Guarantees.StaleReceive
