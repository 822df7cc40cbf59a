import Remote8008.Guarantees.TransmitFrame
import Remote8008.Guarantees.WireImage

/-!
# The fields of transmitted frames

firmware/udp.c:241-345,425-488. The images of the frames taken apart again: each field of a
frame is found at its offset, so what is sent carries the addresses, ports and payload the
sender was given.
-/

namespace Remote8008.Guarantees.FrameFields
open Lib.Memory Lib.BigEndian Lib.OnesComplement
open Source.Firmware Source.UdpTransmit Source.UdpReceive TransmitFrame WireImage

variable {σ : Type}

/-! ## Fields at their places -/

theorem field_of_holds {m : Mem} {frame bytes : List UInt8} {first : Nat}
    (whole : Holds m 0 frame) (piece : Holds m first bytes)
    (inside : first + bytes.length ≤ frame.length) :
    field frame first bytes.length = bytes := by
  have slice : ((load m 0 frame.length).drop first).take bytes.length =
      load m (0 + first) bytes.length := load_slice m inside
  have bytesOf : load m 0 frame.length = frame := whole
  rw [bytesOf, Nat.zero_add] at slice
  exact slice.trans piece

/-- The fields of an IP frame at their places in memory. -/
structure IpFields (m : Mem) (destmac srcmac : Mac) (totalLength : UInt16) (proto : UInt8)
    (srcIp dstIp : UInt32) : Prop where
  destmac : Holds m 0 destmac.toList
  srcmac : Holds m 6 srcmac.toList
  ethertype : Holds m 12 (be16 ethertypeIp)
  header : Holds m 14 (ipHeader totalLength proto srcIp dstIp)
  version : Holds m 14 [ipIpv4]
  totalLength : Holds m 16 (be16 totalLength)
  proto : Holds m 23 [proto]
  srcIp : Holds m 26 (be32 srcIp)
  dstIp : Holds m 30 (be32 dstIp)

theorem pair_eq_append (a b : UInt8) : [a, b] = [a] ++ [b] := rfl

theorem ipFields_of_holds {m : Mem} {destmac srcmac : Mac} {totalLength : UInt16} {proto : UInt8}
    {srcIp dstIp : UInt32} (holds : Holds m 0 (ethernetHeader destmac srcmac ethertypeIp ++
      ipHeader totalLength proto srcIp dstIp)) :
    IpFields m destmac srcmac totalLength proto srcIp dstIp := by
  obtain ⟨ethernet, header⟩ := holds_append.mp holds
  rw [ethernetHeader_length, Nat.zero_add] at header
  have fields := header
  simp only [ipHeader, withChecksum, pair_eq_append, holds_append, List.length_append, be16_length,
    be32_length, List.length_cons, List.length_nil, Nat.reduceAdd, Nat.zero_add] at fields
  simp only [ethernetHeader, holds_append, List.length_append, Vector.length_toList, Nat.reduceAdd,
    Nat.zero_add] at ethernet
  obtain ⟨⟨destmac, srcmac⟩, ethertype⟩ := ethernet
  obtain ⟨⟨⟨⟨⟨⟨⟨version, -⟩, length⟩, -⟩, -⟩, -, proto⟩, -⟩, srcIp, dstIp⟩ := fields
  exact ⟨destmac, srcmac, ethertype, header, version, length, proto, srcIp, dstIp⟩

theorem loadMac_of_holds {m : Mem} {start : Nat} {mac : Mac} (holds : Holds m start mac.toList) :
    loadMac m start = mac := by
  have bytes : load m start 6 = mac.toList := by simpa [Holds] using holds
  apply Vector.toList_inj.mp
  rw [← bytes]
  rfl

/-- The fields of a UDP frame at their places in memory. -/
structure UdpFields (m : Mem) (destmac srcmac : Mac) (srcIp dstIp : UInt32)
    (srcPort dstPort : UInt16) (payload : List UInt8) : Prop where
  ip : IpFields m destmac srcmac (UInt16.ofNat (payload.length + sizeofUdpFrame)) ipProtoUdp srcIp
    dstIp
  datagram : Holds m 34 (udpDatagram srcIp dstIp srcPort dstPort payload)
  srcPort : Holds m 34 (be16 srcPort)
  dstPort : Holds m 36 (be16 dstPort)
  udpLength : Holds m 38 (be16 (UInt16.ofNat (payload.length + 8)))
  checksum : ∃ covered, Holds m 40 (be16 (checksum covered))
  payload : Holds m 42 payload

theorem udpFields_of_holds {m : Mem} {destmac srcmac : Mac} {srcIp dstIp : UInt32}
    {srcPort dstPort : UInt16} {payload : List UInt8}
    (holds : Holds m 0 (udpImage destmac srcmac srcIp dstIp srcPort dstPort payload)) :
    UdpFields m destmac srcmac srcIp dstIp srcPort dstPort payload := by
  obtain ⟨headers, datagram⟩ := holds_append.mp holds
  rw [List.length_append, ethernetHeader_length, ipHeader_length, Nat.zero_add] at datagram
  have fields := datagram
  simp only [udpDatagram, withChecksum, holds_append, List.length_append, be16_length,
    Nat.reduceAdd] at fields
  obtain ⟨⟨⟨⟨srcPort, dstPort⟩, length⟩, checksum⟩, payload⟩ := fields
  exact ⟨ipFields_of_holds headers, datagram, srcPort, dstPort, length, ⟨_, checksum⟩, payload⟩

/-- The fields of an ARP frame that say who speaks, at their places in memory. -/
structure ArpFields (m : Mem) (opcode : UInt16) (senderIp : UInt32) : Prop where
  ethertype : Holds m 12 (be16 ethertypeArp)
  opcode : Holds m 20 (be16 opcode)
  senderIp : Holds m 28 (be32 senderIp)

theorem arpFields_of_holds {m : Mem} {destmac srcmac targetMac : Mac} {opcode : UInt16}
    {senderIp targetIp : UInt32}
    (holds : Holds m 0 (arpImage destmac srcmac opcode senderIp targetMac targetIp)) :
    ArpFields m opcode senderIp := by
  simp only [arpImage, ethernetHeader, holds_append, List.length_append, Vector.length_toList,
    be16_length, be32_length, List.length_cons, List.length_nil, Nat.reduceAdd,
    Nat.zero_add] at holds
  obtain ⟨⟨-, ethertype⟩, ⟨⟨⟨⟨-, opcode⟩, -⟩, senderIp⟩, -⟩, -⟩ := holds
  exact ⟨ethertype, opcode, senderIp⟩

/-! ## What the senders transmit -/

theorem carriesUdp_of_fields {m : Mem} (whole : Holds m 0 frame)
    (fields : UdpFields m destmac srcmac srcIp dstIp srcPort dstPort payload)
    (long : 42 + payload.length ≤ frame.length) :
    CarriesUdp frame destmac srcmac srcIp dstIp srcPort dstPort payload where
  destmac := by simpa using field_of_holds whole fields.ip.destmac (by simp; omega)
  srcmac := by simpa using field_of_holds whole fields.ip.srcmac (by simp; omega)
  ethertype := field_of_holds whole fields.ip.ethertype (by simp; omega)
  proto := field_of_holds whole fields.ip.proto (by simp; omega)
  srcIp := field_of_holds whole fields.ip.srcIp (by simp; omega)
  dstIp := field_of_holds whole fields.ip.dstIp (by simp; omega)
  srcPort := field_of_holds whole fields.srcPort (by simp; omega)
  dstPort := field_of_holds whole fields.dstPort (by simp; omega)
  udpLength := field_of_holds whole fields.udpLength (by simp; omega)
  payload := field_of_holds whole fields.payload long

/-- With a peer and a payload that fits, `udp_send` transmits one frame, addressed to
the peer and carrying the payload of the slot. -/
theorem udpSend_frame {w : World σ} (srcPort dstPort : UInt16) {length : Nat}
    (peer : w.cachedMac ≠ Mac.zero) (fits : length ≤ maxPayload) :
    ∃ frame, (udpSend w srcPort dstPort length).2.trace = w.trace ++ [.transmit frame] ∧
      CarriesUdp frame w.cachedMac w.myMac w.myIp w.cachedIp srcPort dstPort
        (load w.txbuffer 42 length) := by
  have size : (load w.txbuffer 42 length).length = length := load_length ..
  obtain ⟨w', ran, sent⟩ := udpSend_transmits srcPort dstPort (holds_load w.txbuffer 42 length) peer
    (size.symm ▸ fits)
  rw [size] at ran
  rw [ran]
  refine ⟨_, Transmits.trace sent, ?_⟩
  have whole := holds_ofBytes (udpImage w.cachedMac w.myMac w.myIp w.cachedIp srcPort dstPort
    (load w.txbuffer 42 length) ++ udpGap w.txbuffer (load w.txbuffer 42 length).length ++
    List.replicate (100 - udpTxlen (load w.txbuffer 42 length).length) 0)
  have image := (holds_append.mp (holds_append.mp whole).1).1
  apply carriesUdp_of_fields whole (udpFields_of_holds image)
  rw [List.length_append, List.length_append, udpImage_length]
  omega

theorem sendArp_frame (w : World σ) (destmac : Mac) (opcode : UInt16) (targetMac : Mac)
    (targetIp : UInt32) :
    ∃ frame, (sendArp w destmac opcode targetMac targetIp).trace = w.trace ++ [.transmit frame] ∧
      CarriesArp frame opcode w.myIp := by
  refine ⟨_, Transmits.trace (sendArp_transmits w destmac opcode targetMac targetIp), ?_⟩
  have whole := holds_ofBytes (arpImage destmac w.myMac opcode w.myIp targetMac targetIp ++
    List.replicate 58 0)
  have fields := arpFields_of_holds (holds_append.mp whole).1
  have long : 42 ≤ (arpImage destmac w.myMac opcode w.myIp targetMac targetIp ++
      List.replicate 58 0).length := by
    rw [List.length_append, arpImage_length]
    exact Nat.le_add_right _ _
  constructor
  · exact field_of_holds whole fields.ethertype (by rw [be16_length]; omega)
  · exact field_of_holds whole fields.opcode (by rw [be16_length]; omega)
  · exact field_of_holds whole fields.senderIp (by rw [be32_length]; omega)

end Remote8008.Guarantees.FrameFields
