import Remote8008.Guarantees.UnleasedSilence

/-!
# Answers to echo requests

firmware/udp.c:397-418,563-600. `process_icmp` returns the identifier, the sequence number
and the whole payload of an echo request to its sender. `ip_checksum` works on 16-bit
words and leaves odd lengths to its callers; `process_icmp` does not pad, so the last byte
of an odd payload is sent but not summed, and the ICMP checksum is wrong unless that byte
is zero.
-/

namespace Remote8008.Guarantees.EchoAnswers
open Lib.Memory Lib.BigEndian Lib.OnesComplement
open Source.Firmware Source.UdpTransmit Source.UdpReceive
open FrameDispatch TransmitFrame WireImage FrameFields

variable {σ : Type}

/-- The payload of an echo request. -/
def echoPayload (f : RxFrame) : List UInt8 := load f.raw 42 (ipTotalLength f - sizeofIcmpFrame)

/-- A frame that returns the contents of the echo request `f` to its sender, with a valid IP
header. -/
structure ReturnsEcho (f : RxFrame) (myIp : UInt32) (frame : List UInt8) : Prop where
  destmac : field frame 0 6 = (srcMac f).toList
  ethertype : field frame 12 2 = be16 ethertypeIp
  totalLength : ofBe (field frame 16 2) = ipTotalLength f
  proto : field frame 23 1 = [ipProtoIcmp]
  ipChecksum : Verifies (field frame 14 20)
  srcIp : field frame 26 4 = be32 myIp
  dstIp : field frame 30 4 = be32 (ipSrc f)
  type : field frame 34 2 = [icmpEchoReply, 0]
  identifier : field frame 38 2 = load f.raw 38 2
  sequence : field frame 40 2 = load f.raw 40 2
  payload : field frame 42 (echoPayload f).length = echoPayload f

/-! ## The ICMP checksum -/

theorem echoReply_even {repeated : List UInt8} (even : repeated.length % 2 = 0) :
    echoReply repeated = withChecksum [] [icmpEchoReply, 0] repeated := by
  have all : 2 * (repeated.length / 2) = repeated.length := by omega
  simp only [echoReply, all, List.take_length, List.drop_length, List.append_nil]

theorem echoReply_odd {whole : List UInt8} {last : UInt8} (even : whole.length % 2 = 0) :
    echoReply (whole ++ [last]) = withChecksum [] [icmpEchoReply, 0] whole ++ [last] := by
  have summed : 2 * ((whole ++ [last]).length / 2) = whole.length := by
    simp only [List.length_append, List.length_singleton]
    omega
  simp only [echoReply, summed, List.take_left, List.drop_left]

theorem echo_withChecksum_verifies (body : List UInt8) :
    Verifies (withChecksum [] [icmpEchoReply, 0] body) := by
  rw [← List.nil_append (withChecksum ..)]
  apply verifies_withChecksum
  rfl

theorem echoReply_verifies_iff (repeated : List UInt8) :
    Verifies (echoReply repeated) ↔
      repeated.length % 2 = 0 ∨ repeated.getLast? = some 0 := by
  rcases Nat.mod_two_eq_zero_or_one repeated.length with even | odd
  · simp [echoReply_even even, echo_withChecksum_verifies, even]
  · obtain ⟨whole, last, rfl⟩ : ∃ whole last, repeated = whole ++ [last] := by
      rcases List.eq_nil_or_concat repeated with rfl | ⟨whole, last, split⟩
      · simp at odd
      · exact ⟨whole, last, by simpa using split⟩
    have even : whole.length % 2 = 0 := by
      simp only [List.length_append, List.length_singleton] at odd
      omega
    have length : (withChecksum [] [icmpEchoReply, 0] whole).length % 2 = 0 := by
      simp only [withChecksum_length, List.length_cons, List.length_nil]
      omega
    rw [echoReply_odd even, verifies_concat_iff length (echo_withChecksum_verifies whole), odd]
    simp

/-! ## The frame -/

theorem echoReply_split (repeated : List UInt8) :
    ∃ checksum, echoReply repeated = [icmpEchoReply, 0] ++ be16 checksum ++ repeated := by
  let summed := 2 * (repeated.length / 2)
  refine ⟨checksum ([] ++ [icmpEchoReply, 0] ++ be16 0 ++ repeated.take summed), ?_⟩
  simp only [echoReply, withChecksum, List.append_assoc, List.take_append_drop, summed]

theorem returnsEcho_of_image {f : RxFrame} {myMac : Mac} {myIp : UInt32} {rest : List UInt8}
    (low : sizeofIcmpFrame ≤ ipTotalLength f) (high : ipTotalLength f ≤ ethmacSlotSize) :
    ReturnsEcho f myIp (echoImage (srcMac f) myMac myIp (ipSrc f)
      (load f.raw 38 (ipTotalLength f - 24)) ++ rest) := by
  have sizes : sizeofIcmpFrame = 28 ∧ ethmacSlotSize = 2048 := ⟨rfl, rfl⟩
  let image := echoImage (srcMac f) myMac myIp (ipSrc f) (load f.raw 38 (ipTotalLength f - 24))
  have length : (image ++ rest).length = 14 + ipTotalLength f + rest.length := by
    rw [List.length_append, echoImage_length, load_length]
    omega
  have whole := holds_ofBytes (image ++ rest)
  obtain ⟨headers, reply⟩ := holds_append.mp (holds_append.mp whole).1
  have fields := ipFields_of_holds headers
  rw [List.length_append, ethernetHeader_length, ipHeader_length, Nat.zero_add] at reply
  obtain ⟨checksum, split⟩ := echoReply_split (load f.raw 38 (ipTotalLength f - 24))
  have pieces : load f.raw 38 (ipTotalLength f - 24) =
      load f.raw 38 2 ++ load f.raw 40 2 ++ echoPayload f := by
    have count : ipTotalLength f - 24 = 2 + 2 + (ipTotalLength f - sizeofIcmpFrame) := by omega
    rw [count, load_append, load_append, echoPayload]
  rw [split, pieces] at reply
  simp only [holds_append, List.length_append, List.length_cons, List.length_nil, be16_length,
    load_length, Nat.reduceAdd] at reply
  obtain ⟨⟨type, -⟩, ⟨identifier, sequence⟩, payload⟩ := reply
  have size : (echoPayload f).length = ipTotalLength f - sizeofIcmpFrame := load_length ..
  have read : ∀ {first : Nat} {bytes : List UInt8}, Holds (ofBytes (image ++ rest)) first bytes →
      first + bytes.length ≤ 14 + ipTotalLength f →
      field (image ++ rest) first bytes.length = bytes :=
    fun piece inside => field_of_holds whole piece (by omega)
  have macs := read fields.destmac (by simp only [Vector.length_toList]; omega)
  rw [Vector.length_toList] at macs
  have header := read fields.header (by rw [ipHeader_length]; omega)
  rw [ipHeader_length] at header
  have total : field (image ++ rest) 16 2 = _ :=
    read fields.totalLength (by rw [be16_length]; omega)
  have identified := read identifier (by rw [load_length]; omega)
  have sequenced := read sequence (by rw [load_length]; omega)
  rw [load_length] at identified sequenced
  constructor
  · exact macs
  · exact read fields.ethertype (by rw [be16_length]; omega)
  · rw [total, ofBe_be16, UInt16.toNat_ofNat', load_length]
    omega
  · exact read fields.proto (by rw [List.length_singleton]; omega)
  · rw [header]
    exact ipHeader_verifies ..
  · exact read fields.srcIp (by rw [be32_length]; omega)
  · exact read fields.dstIp (by rw [be32_length]; omega)
  · exact read type (by simp only [List.length_cons, List.length_nil]; omega)
  · exact identified
  · exact sequenced
  · exact read payload (by rw [size]; omega)

/-- The ICMP message of the frame is the one `process_icmp` means. -/
theorem field_echoReply (destmac srcmac : Mac) (srcIp dstIp : UInt32) (repeated rest : List UInt8) :
    field (echoImage destmac srcmac srcIp dstIp repeated ++ rest) 34 (4 + repeated.length) =
      echoReply repeated := by
  have whole := holds_ofBytes (echoImage destmac srcmac srcIp dstIp repeated ++ rest)
  have reply := (holds_append.mp (holds_append.mp whole).1).2
  have read := field_of_holds whole reply (by simp; omega)
  simpa only [List.length_append, ethernetHeader_length, ipHeader_length, echoReply_length,
    Nat.reduceAdd, Nat.zero_add] using read

/-- The answer to an echo request is complete, goes to its sender and has a valid IP header.
Its ICMP checksum verifies exactly when the payload has even length or ends in zero. -/
theorem echo_reply_verifies_iff {f : RxFrame} {w : World σ} (request : EchoRequestFor w.myIp f) :
    ∃ frame, (processFrame f w).trace = w.trace ++ [.transmit frame] ∧
      ReturnsEcho f w.myIp frame ∧
      (Verifies (field frame 34 (8 + (echoPayload f).length)) ↔
        (echoPayload f).length % 2 = 0 ∨ (echoPayload f).getLast? = some 0) := by
  have sizes : sizeofIcmpFrame = 28 ∧ sizeofEthernetHeader = 14 := ⟨rfl, rfl⟩
  have low := request.totalLow
  have high := request.totalHigh
  have slot := request.high
  obtain ⟨slots, sent⟩ := echoAnswer_transmits f w low
  rw [processFrame_answersEcho request, sent]
  refine ⟨_, rfl, returnsEcho_of_image low (by omega), ?_⟩
  have size : (echoPayload f).length = ipTotalLength f - sizeofIcmpFrame := load_length ..
  have pieces : load f.raw 38 (ipTotalLength f - 24) = load f.raw 38 4 ++ echoPayload f := by
    have count : ipTotalLength f - 24 = 4 + (ipTotalLength f - sizeofIcmpFrame) := by omega
    rw [count, load_append, echoPayload]
  have covered : 8 + (echoPayload f).length =
      4 + (load f.raw 38 (ipTotalLength f - 24)).length := by
    rw [size, load_length]
    omega
  rw [covered, field_echoReply, echoReply_verifies_iff, load_length, pieces]
  have parity : (ipTotalLength f - 24) % 2 = (echoPayload f).length % 2 := by omega
  rw [parity]
  rcases Nat.mod_two_eq_zero_or_one (echoPayload f).length with even | odd
  · simp [even]
  · have present : echoPayload f ≠ [] := by
      intro none
      simp [none] at odd
    rw [List.getLast?_append_of_ne_nil _ present]

/-- An echo request from 192.168.1.2 to 192.168.1.50. -/
def ping (payload : List UInt8) : RxFrame :=
  ⟨42 + payload.length, ofBytes ([0x10, 0xe2, 0xd5, 0, 0, 2, 2, 0, 0, 0, 0, 7, 0x08, 0x00,
    0x45, 0] ++ toBe 2 (28 + payload.length) ++ [0, 0, 0, 0, 64, 1, 0, 0, 192, 168, 1, 2] ++
    [192, 168, 1, 50, 8, 0, 0, 0, 0x12, 0x34, 0, 1] ++ payload)⟩

theorem echo_reply_verifies_iff_ping : ∃ frame,
    (processFrame (ping [0x61, 0x62]) RequestServer.listening).trace = [.transmit frame] ∧
      Verifies (field frame 34 10) := by
  have request : EchoRequestFor RequestServer.listening.myIp (ping [0x61, 0x62]) := by
    decide +kernel
  obtain ⟨frame, sent, -, verifies⟩ := echo_reply_verifies_iff request
  exact ⟨frame, sent, verifies.mpr (.inl rfl)⟩

/-- A request with a payload of one byte. -/
theorem odd_echo_reply_invalid :
    EchoRequestFor RequestServer.listening.myIp (ping [0x61]) ∧
    ipDst (ping [0x61]) = RequestServer.listening.myIp ∧
    ∃ frame ∈ transmitted (processFrame (ping [0x61]) RequestServer.listening).trace,
      field frame 42 1 = [0x61] ∧ ¬ Verifies (field frame 34 9) := by
  decide +kernel

end Remote8008.Guarantees.EchoAnswers
