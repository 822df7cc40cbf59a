import Remote8008.Guarantees.RequestServer

/-!
# A datagram sent is the datagram received

firmware/udp.c:160-203,397-488,657-703. What `udp_send` hands to the MAC is a valid UDP
datagram, and the receive path of a station with the peer's address passes exactly its
payload, addresses and ports to the callback. The receiver looks at no checksum, so their
validity is stated on the bytes.
-/

namespace Remote8008.Guarantees.UdpRoundTrip
open Lib.Memory Lib.BigEndian Lib.OnesComplement
open Source.Firmware Source.UdpTransmit Source.UdpReceive
open FirmwareEffects TransmitFrame WireImage FrameFields

variable {σ τ : Type}

/-! ## The bytes -/

/-- A frame that holds a valid UDP datagram. -/
structure ValidDatagram (frame : List UInt8) (srcIp dstIp : UInt32) (payload : List UInt8) :
    Prop where
  length : frame.length = max 100 (42 + payload.length)
  version : field frame 14 1 = [ipIpv4]
  ipLength : ofBe (field frame 16 2) = 28 + payload.length
  ipChecksum : Verifies (field frame 14 20)
  udpLength : ofBe (field frame 38 2) = 8 + payload.length
  /-- A zero field would stand for no checksum. -/
  udpChecksummed : ofBe (field frame 40 2) ≠ 0
  udpChecksum : Verifies (be32 srcIp ++ be32 dstIp ++ [0, ipProtoUdp] ++ field frame 38 2 ++
    field frame 34 (8 + payload.length))

section
variable {frame : List UInt8} {destmac srcmac : Mac} {srcIp dstIp : UInt32}
  {srcPort dstPort : UInt16} {payload rest : List UInt8}

theorem validDatagram_of_fields {m : Mem} (whole : Holds m 0 frame)
    (fields : UdpFields m destmac srcmac srcIp dstIp srcPort dstPort payload)
    (length : frame.length = max 100 (42 + payload.length)) (fits : payload.length ≤ 2006) :
    ValidDatagram frame srcIp dstIp payload := by
  have size : sizeofUdpFrame = 28 := rfl
  have ipLength : field frame 16 2 = _ :=
    field_of_holds whole fields.ip.totalLength (by simp; omega)
  have udpLength : field frame 38 2 = _ := field_of_holds whole fields.udpLength (by simp; omega)
  have header := field_of_holds whole fields.ip.header (by simp; omega)
  have datagram := field_of_holds whole fields.datagram (by simp; omega)
  rw [ipHeader_length] at header
  rw [udpDatagram_length] at datagram
  obtain ⟨covered, checksum⟩ := fields.checksum
  have sum : field frame 40 2 = _ := field_of_holds whole checksum (by simp; omega)
  constructor
  · exact length
  · exact field_of_holds whole fields.ip.version (by simp; omega)
  · rw [ipLength, ofBe_be16, UInt16.toNat_ofNat']
    omega
  · rw [header]
    exact ipHeader_verifies ..
  · rw [udpLength, ofBe_be16, UInt16.toNat_ofNat']
    omega
  · rw [sum, ofBe_be16]
    intro zero
    exact checksum_ne_zero covered (UInt16.toNat_inj.mp zero)
  · rw [udpLength, datagram]
    exact udpDatagram_verifies ..

end

/-! ## The receiver -/

theorem received_of_fields {f : RxFrame} {destmac srcmac : Mac} {srcIp dstIp : UInt32}
    {srcPort dstPort : UInt16} {payload : List UInt8}
    (fields : UdpFields f.raw destmac srcmac srcIp dstIp srcPort dstPort payload)
    (long : 42 + payload.length ≤ f.len) (short : f.len ≤ ethmacSlotSize) :
    WellFormedUdp f ∧ datagram f = ⟨srcIp, srcPort, dstPort, payload⟩ ∧ ipDst f = dstIp ∧
      srcMac f = srcmac := by
  have sizes : sizeofEthernetHeader = 14 ∧ sizeofUdpFrame = 28 ∧ ethmacSlotSize = 2048 :=
    ⟨rfl, rfl, rfl⟩
  have total : ipTotalLength f = payload.length + 28 := by
    rw [ipTotalLength, fields.ip.totalLength.load16, UInt16.toNat_ofNat']
    omega
  have length : udpLength f = payload.length + 8 := by
    rw [udpLength, fields.udpLength.load16, UInt16.toNat_ofNat']
    omega
  refine ⟨?_, ?_, fields.ip.dstIp.load32, loadMac_of_holds fields.ip.srcmac⟩
  · constructor
    · omega
    · exact short
    · exact fields.ip.ethertype.load16
    · exact fields.ip.version.byte
    · exact fields.ip.proto.byte
    · omega
    · omega
    · omega
    · omega
  · rw [datagram, length, Nat.add_sub_cancel, fields.payload]
    rw [ipSrc, fields.ip.srcIp.load32, fields.srcPort.load16, fields.dstPort.load16]

/-! ## Both ends -/

/-- What `udp_send` does with a payload. With a peer and a payload that fits it transmits
one valid datagram, and a station that has the peer's address and a unicast callback
hands its contents to that callback. Otherwise it reports failure and transmits nothing. -/
theorem udp_send_round_trip (w : World σ) (srcPort dstPort : UInt16) (payload : List UInt8) :
    (w.cachedMac ≠ Mac.zero → payload.length ≤ 2006 → ∃ w' frame,
      sendPayload w srcPort dstPort payload = (true, w') ∧
      w'.trace = w.trace ++ [.transmit frame] ∧
      CarriesUdp frame w.cachedMac w.myMac w.myIp w.cachedIp srcPort dstPort payload ∧
      ValidDatagram frame w.myIp w.cachedIp payload ∧
      ∀ (v : World τ) (target : Callback) (f : RxFrame), v.myIp = w.cachedIp →
        v.rxCallback = some target → f.len = frame.length → Holds f.raw 0 frame →
        processFrame f v =
          invoke { v with lastSrcMac := w.myMac } ⟨w.myIp, srcPort, dstPort, payload⟩ target) ∧
    (w.cachedMac = Mac.zero ∨ 2006 < payload.length → ∃ w',
      sendPayload w srcPort dstPort payload = (false, w') ∧ w'.trace = w.trace) := by
  have limit : maxPayload = 2006 := rfl
  constructor
  · intro peer fits
    have inLimit : payload.length ≤ maxPayload := fits
    obtain ⟨w', sent, slots, rfl⟩ := sendPayload_transmits srcPort dstPort peer inLimit
    let image := udpImage w.cachedMac w.myMac w.myIp w.cachedIp srcPort dstPort payload
    let rest := udpGap (store w.txbuffer payloadOffset payload) payload.length ++
      List.replicate (100 - udpTxlen payload.length) 0
    have length : (image ++ rest).length = max 100 (42 + payload.length) := by
      simp only [image, rest, List.length_append, udpImage_length, udpGap, load_length,
        List.length_replicate, udpTxlen_eq]
      omega
    have read : ∀ m, Holds m 0 (image ++ rest) →
        UdpFields m w.cachedMac w.myMac w.myIp w.cachedIp srcPort dstPort payload :=
      fun m whole => udpFields_of_holds (holds_append.mp whole).1
    have fields := read _ (holds_ofBytes (image ++ rest))
    refine ⟨_, image ++ rest, sent, ?_, ?_, ?_, ?_⟩
    · simp only [image, rest, ← List.append_assoc]
    · exact carriesUdp_of_fields (holds_ofBytes _) fields (by omega)
    · exact validDatagram_of_fields (holds_ofBytes _) fields length fits
    · intro v target f peerIp callback size holds
      have slotSize : ethmacSlotSize = 2048 := rfl
      obtain ⟨shape, contents, dest, source⟩ := received_of_fields (read f.raw holds) (by omega)
        (by omega)
      have chosen : chosenCallback v (ipDst f) = some target := by
        simp [chosenCallback, dest, peerIp, callback]
      rw [processFrame_delivers shape chosen, contents, source]
  · intro refused
    refine ⟨w.setTxbuffer (store w.txbuffer payloadOffset payload), ?_, rfl⟩
    exact sendPayload_refused srcPort dstPort (by rwa [limit])

/-- A station at 192.168.1.2 whose peer is the board at 192.168.1.50. -/
def sender : World Unit :=
  udpSetPeer { RequestServer.listening with myIp := 0xc0a80102 } 0xc0a80132 Source.Main.macEthmac

/-- One byte reaches the board; the board itself has no peer yet and sends none. -/
theorem udp_send_round_trip_byte :
    (∃ w' frame, sendPayload sender 1234 1235 [0x61] = (true, w') ∧
      w'.trace = [.transmit frame] ∧ ValidDatagram frame 0xc0a80102 0xc0a80132 [0x61] ∧
      processFrame ⟨frame.length, ofBytes frame⟩ RequestServer.listening =
        invoke { RequestServer.listening with lastSrcMac := Source.Main.macEthmac }
          ⟨0xc0a80102, 1234, 1235, [0x61]⟩ .eb) ∧
    ∃ w', sendPayload RequestServer.listening 1234 1235 [0x61] = (false, w') ∧ w'.trace = [] := by
  constructor
  · obtain ⟨w', frame, sent, trace, -, valid, received⟩ :=
      (udp_send_round_trip (τ := Unit) sender 1234 1235 [0x61]).1 (by decide) (by decide)
    exact ⟨w', frame, sent, trace, valid, received RequestServer.listening .eb
      ⟨frame.length, ofBytes frame⟩ rfl rfl rfl (holds_ofBytes frame)⟩
  · exact (udp_send_round_trip (τ := Unit) RequestServer.listening 1234 1235 [0x61]).2 (.inl rfl)

end Remote8008.Guarantees.UdpRoundTrip
