import Remote8008.Guarantees.FrameDispatch
import Remote8008.Lib.OnesComplement

/-!
# The bytes of a frame

firmware/udp.c:48-62,160-237,241-345,397-488,563-600. Each sender assembles its frame by
stores into the current transmit slot. Here the frame is written out as a list of bytes,
independently of the order of the stores, and the slot is shown to hold it. The checksums
of the source, summed into a wide accumulator and folded at the end, are the ones of
`Lib.OnesComplement`.
-/

namespace Remote8008.Guarantees.WireImage
open Lib.Memory Lib.BigEndian Lib.OnesComplement
open Source.Firmware Source.UdpTransmit Source.UdpReceive FrameDispatch

variable {σ : Type}

/-! ## Checksums -/

theorem load_two_mul_succ (m : Mem) (start n : Nat) : load m start (2 * (n + 1)) =
    m start :: m (start + 1) :: load m (start + 2) (2 * n) := by
  have length : 2 * (n + 1) = 2 + 2 * n := by omega
  rw [length, load_append]
  rfl

theorem addWords_eq (m : Mem) (start n r : Nat) :
    addWords m start n r = r + (words (load m start (2 * n))).sum := by
  induction n generalizing start r with
  | zero => rfl
  | succ n ih =>
    rw [addWords, ih, load_two_mul_succ, words, List.sum_cons, Nat.add_assoc]

theorem foldCarries_eq {fuel r : Nat} (enough : r ≤ fuel) : foldCarries fuel r = fold r := by
  induction fuel generalizing r with
  | zero =>
    obtain rfl : r = 0 := by omega
    rfl
  | succ fuel ih =>
    rw [foldCarries]
    split
    next small => exact (fold_of_lt (by omega)).symm
    next large =>
      rw [ih (by omega)]
      unfold fold
      split <;> split <;> omega

theorem ipChecksum_running (m : Mem) (start length : Nat) :
    ipChecksum 0 m start length false = sum (load m start (2 * (length / 2))) := by
  rw [ipChecksum, addWords_eq, foldCarries_eq (Nat.le_refl _), sum_eq_fold, Nat.zero_add]
  rfl

/-- The completed checksum, over what was summed before and the whole words of the run. -/
theorem ofNat_ipChecksum (earlier : List UInt8) (even : earlier.length % 2 = 0) (m : Mem)
    (start length : Nat) : UInt16.ofNat (ipChecksum (sum earlier) m start length true) =
      checksum (earlier ++ load m start (2 * (length / 2))) := by
  have total : fold (sum earlier + (words (load m start (2 * (length / 2)))).sum) =
      sum (earlier ++ load m start (2 * (length / 2))) := by
    rw [sum_eq_fold earlier, fold_fold_add, sum_eq_fold, words_append _ _ even, List.sum_append]
  rw [ipChecksum, addWords_eq, foldCarries_eq (Nat.le_refl _), total]
  rfl

/-! ## Frames as bytes -/

def ethernetHeader (destmac srcmac : Mac) (ethertype : UInt16) : List UInt8 :=
  destmac.toList ++ srcmac.toList ++ be16 ethertype

def ipHeader (totalLength : UInt16) (proto : UInt8) (srcIp dstIp : UInt32) : List UInt8 :=
  withChecksum [] ([ipIpv4, 0] ++ be16 totalLength ++ be16 0 ++ be16 ipDontFragment ++
    [ipTtl, proto]) (be32 srcIp ++ be32 dstIp)

def pseudoBytes (srcIp dstIp : UInt32) (udpLength : UInt16) : List UInt8 :=
  be32 srcIp ++ be32 dstIp ++ [0, ipProtoUdp] ++ be16 udpLength

def udpDatagram (srcIp dstIp : UInt32) (srcPort dstPort : UInt16) (payload : List UInt8) :
    List UInt8 :=
  let length := UInt16.ofNat (payload.length + 8)
  withChecksum (pseudoBytes srcIp dstIp length) (be16 srcPort ++ be16 dstPort ++ be16 length)
    payload

/-- The frame `udp_send` means. -/
def udpImage (destmac srcmac : Mac) (srcIp dstIp : UInt32) (srcPort dstPort : UInt16)
    (payload : List UInt8) : List UInt8 :=
  ethernetHeader destmac srcmac ethertypeIp ++
    ipHeader (UInt16.ofNat (payload.length + sizeofUdpFrame)) ipProtoUdp srcIp dstIp ++
    udpDatagram srcIp dstIp srcPort dstPort payload

def arpImage (destmac srcmac : Mac) (opcode : UInt16) (senderIp : UInt32) (targetMac : Mac)
    (targetIp : UInt32) : List UInt8 :=
  ethernetHeader destmac srcmac ethertypeArp ++ (be16 arpHwtypeEthernet ++ be16 arpProtoIp ++
    [6, 4] ++ be16 opcode ++ srcmac.toList ++ be32 senderIp ++ targetMac.toList ++ be32 targetIp)

/-- An echo reply around the bytes it repeats, from the identifier on. The sum leaves out a
trailing odd byte. -/
def echoReply (repeated : List UInt8) : List UInt8 :=
  let summed := 2 * (repeated.length / 2)
  withChecksum [] [icmpEchoReply, 0] (repeated.take summed) ++ repeated.drop summed

/-- The frame `process_icmp` means; `repeated` starts at the identifier. -/
def echoImage (destmac srcmac : Mac) (srcIp dstIp : UInt32) (repeated : List UInt8) :
    List UInt8 :=
  ethernetHeader destmac srcmac ethertypeIp ++
    ipHeader (UInt16.ofNat (repeated.length + 24)) ipProtoIcmp srcIp dstIp ++ echoReply repeated

@[simp] theorem ethernetHeader_length (destmac srcmac : Mac) (ethertype : UInt16) :
    (ethernetHeader destmac srcmac ethertype).length = 14 := by
  simp [ethernetHeader]

@[simp] theorem withChecksum_length (pseudo before after : List UInt8) :
    (withChecksum pseudo before after).length = before.length + 2 + after.length := by
  simp [withChecksum, Nat.add_assoc]

@[simp] theorem ipHeader_length (totalLength : UInt16) (proto : UInt8) (srcIp dstIp : UInt32) :
    (ipHeader totalLength proto srcIp dstIp).length = 20 := by
  simp [ipHeader]

@[simp] theorem pseudoBytes_length (srcIp dstIp : UInt32) (udpLength : UInt16) :
    (pseudoBytes srcIp dstIp udpLength).length = 12 := by
  simp [pseudoBytes]

@[simp] theorem udpDatagram_length (srcIp dstIp : UInt32) (srcPort dstPort : UInt16)
    (payload : List UInt8) :
    (udpDatagram srcIp dstIp srcPort dstPort payload).length = 8 + payload.length := by
  simp [udpDatagram]

@[simp] theorem udpImage_length (destmac srcmac : Mac) (srcIp dstIp : UInt32)
    (srcPort dstPort : UInt16) (payload : List UInt8) :
    (udpImage destmac srcmac srcIp dstIp srcPort dstPort payload).length =
      42 + payload.length := by
  simp only [udpImage, List.length_append, ethernetHeader_length, ipHeader_length,
    udpDatagram_length]
  omega

@[simp] theorem arpImage_length (destmac srcmac : Mac) (opcode : UInt16) (senderIp : UInt32)
    (targetMac : Mac) (targetIp : UInt32) :
    (arpImage destmac srcmac opcode senderIp targetMac targetIp).length = 42 := by
  simp [arpImage]

@[simp] theorem echoReply_length (repeated : List UInt8) :
    (echoReply repeated).length = 4 + repeated.length := by
  simp only [echoReply, List.length_append, withChecksum_length, List.length_take,
    List.length_drop, List.length_cons, List.length_nil]
  omega

@[simp] theorem echoImage_length (destmac srcmac : Mac) (srcIp dstIp : UInt32)
    (repeated : List UInt8) :
    (echoImage destmac srcmac srcIp dstIp repeated).length = 38 + repeated.length := by
  simp only [echoImage, List.length_append, ethernetHeader_length, ipHeader_length,
    echoReply_length]
  omega

theorem ipHeader_verifies (totalLength : UInt16) (proto : UInt8) (srcIp dstIp : UInt32) :
    Verifies (ipHeader totalLength proto srcIp dstIp) := by
  unfold ipHeader
  rw [← List.nil_append (withChecksum ..)]
  apply verifies_withChecksum
  simp

theorem udpDatagram_verifies (srcIp dstIp : UInt32) (srcPort dstPort : UInt16)
    (payload : List UInt8) :
    Verifies (pseudoBytes srcIp dstIp (UInt16.ofNat (payload.length + 8)) ++
      udpDatagram srcIp dstIp srcPort dstPort payload) := by
  unfold udpDatagram
  apply verifies_withChecksum
  simp

/-! ## Headers in the slot -/

theorem holds_fillEthHeader (m : Mem) (destmac srcmac : Mac) (ethertype : UInt16) :
    Holds (fillEthHeader m destmac srcmac ethertype) 0
      (ethernetHeader destmac srcmac ethertype) := by
  have dest := holds_store m 0 destmac.toList
  have source := dest.next 6 srcmac.toList (by simp)
  exact source.next 12 (be16 ethertype) (by simp)

theorem holds_above_fillEthHeader {m : Mem} {start : Nat} {bytes : List UInt8}
    (holds : Holds m start bytes) (above : 14 ≤ start) (destmac srcmac : Mac)
    (ethertype : UInt16) : Holds (fillEthHeader m destmac srcmac ethertype) start bytes := by
  have dest := holds.keep 0 destmac.toList (.inr (by simp; omega))
  have source := dest.keep 6 srcmac.toList (.inr (by simp; omega))
  exact source.keep 12 (be16 ethertype) (.inr (by simp; omega))

theorem holds_putIpHeader (m : Mem) (totalLength : Nat) (proto : UInt8) (srcIp dstIp : UInt32) :
    Holds (putIpHeader m totalLength proto srcIp (be32 dstIp)) 14
      (ipHeader (UInt16.ofNat totalLength) proto srcIp dstIp) := by
  unfold putIpHeader
  extract_lets m1 m2 m3 m4 m5 m6 m7 m8 m9 m10
  have blank : Holds m10 14 (([ipIpv4, 0] ++ be16 (UInt16.ofNat totalLength) ++ be16 0 ++
      be16 ipDontFragment ++ [ipTtl, proto]) ++ be16 0 ++ (be32 srcIp ++ be32 dstIp)) := by
    have h1 : Holds m1 14 [ipIpv4] := holds_store m 14 [ipIpv4]
    have h2 := h1.next 15 [0] rfl
    have h3 := h2.next 16 (be16 (UInt16.ofNat totalLength)) rfl
    have h4 := h3.next 18 (be16 0) rfl
    have h5 := h4.next 20 (be16 ipDontFragment) rfl
    have h6 := h5.next 22 [ipTtl] rfl
    have h7 := h6.next 23 [proto] rfl
    have h8 := h7.next 24 (be16 0) rfl
    have h9 := h8.next 26 (be32 srcIp) rfl
    have h10 : Holds m10 14 _ := h9.next 30 (be32 dstIp) rfl
    simpa using h10
  have computed := ofNat_ipChecksum [] rfl m10 14 20
  have covered : load m10 14 (2 * (20 / 2)) = _ := blank
  rw [covered] at computed
  exact computed ▸ blank.fill 24 _ (by simp) rfl

theorem holds_apart_putIpHeader {m : Mem} {start : Nat} {bytes : List UInt8}
    (holds : Holds m start bytes) (apart : start + bytes.length ≤ 14 ∨ 34 ≤ start)
    (totalLength : Nat) (proto : UInt8) (srcIp dstIp : UInt32) :
    Holds (putIpHeader m totalLength proto srcIp (be32 dstIp)) start bytes := by
  unfold Holds putIpHeader
  simp (disch := (first | omega | (simp only [be32_length]; omega))) only [load_store16_outside,
    load_store8_outside, load_store32_outside, load_store_outside]
  exact holds

/-- Both headers of an IP frame. -/
theorem holds_headers (m : Mem) (destmac srcmac : Mac) (totalLength : Nat) (proto : UInt8)
    (srcIp dstIp : UInt32) :
    Holds (putIpHeader (fillEthHeader m destmac srcmac ethertypeIp) totalLength proto srcIp
      (be32 dstIp)) 0 (ethernetHeader destmac srcmac ethertypeIp ++
        ipHeader (UInt16.ofNat totalLength) proto srcIp dstIp) := by
  have ethernet := holds_fillEthHeader m destmac srcmac ethertypeIp
  apply holds_append.mpr
  constructor
  · exact holds_apart_putIpHeader ethernet (.inl (by simp)) ..
  · rw [ethernetHeader_length]
    exact holds_putIpHeader ..

theorem holds_above_headers {m : Mem} {start : Nat} {bytes : List UInt8}
    (holds : Holds m start bytes) (above : 34 ≤ start) (destmac srcmac : Mac) (totalLength : Nat)
    (proto : UInt8) (srcIp dstIp : UInt32) :
    Holds (putIpHeader (fillEthHeader m destmac srcmac ethertypeIp) totalLength proto srcIp
      (be32 dstIp)) start bytes :=
  holds_apart_putIpHeader (holds_above_fillEthHeader holds (by omega) ..) (.inr above) ..

theorem holds_pseudoHeader (srcIp dstIp : UInt32) (udpLength : Nat) :
    Holds (pseudoHeader srcIp dstIp udpLength) 0
      (pseudoBytes srcIp dstIp (UInt16.ofNat udpLength)) := by
  have source := holds_store (fun _ => 0) 0 (be32 srcIp)
  have dest := source.next 4 (be32 dstIp) rfl
  have zero := dest.next 8 [0] rfl
  have proto := zero.next 9 [ipProtoUdp] rfl
  have whole : Holds (pseudoHeader srcIp dstIp udpLength) 0 _ :=
    proto.next 10 (be16 (UInt16.ofNat udpLength)) rfl
  simpa [pseudoBytes] using whole

theorem checksum_pad (message : List UInt8) (odd : message.length % 2 = 1) :
    checksum (message ++ [0]) = checksum message := by
  rw [checksum, checksum, sum_eq_fold, sum_eq_fold, words_pad message odd]

/-- `udp_send` sums an odd payload together with a zero byte that it stores behind it. -/
theorem udpChecksum_eq {m : Mem} {pseudo header payload : List UInt8}
    (blank : Holds m 34 (header ++ payload)) (pseudoLength : pseudo.length = 12)
    (headerLength : header.length = 8)
    (padding : payload.length % 2 = 1 → m (42 + payload.length) = 0) :
    UInt16.ofNat (ipChecksum (sum pseudo) m 34 (8 + (payload.length + payload.length % 2)) true) =
      checksum (pseudo ++ header ++ payload) := by
  have covered : load m 34 (8 + payload.length) = header ++ payload := by
    simpa [Holds, headerLength] using blank
  rw [ofNat_ipChecksum pseudo (by omega)]
  rcases Nat.mod_two_eq_zero_or_one payload.length with even | odd
  · have length : 2 * ((8 + (payload.length + payload.length % 2)) / 2) = 8 + payload.length := by
      omega
    rw [length, covered, List.append_assoc]
  · have length : 2 * ((8 + (payload.length + payload.length % 2)) / 2) =
        8 + payload.length + 1 := by
      omega
    have last : load m (34 + (8 + payload.length)) 1 = [0] := by
      rw [← Nat.add_assoc, ← padding odd]
      rfl
    rw [length, load_append, covered, last, ← List.append_assoc, ← List.append_assoc,
      checksum_pad _ (by simp only [List.length_append]; omega)]

/-! ## Frames in the slot -/

/-- The UDP header before its checksum is known. -/
def openDatagram (m : Mem) (srcPort dstPort : UInt16) (length : Nat) : Mem :=
  store16 (store16 (store16 (store16 m 34 srcPort) 36 dstPort) 38 (UInt16.ofNat (length + 8))) 40 0

def padOdd (m : Mem) (length : Nat) : Mem :=
  if length % 2 = 1 then store8 m (payloadOffset + length) 0 else m

theorem holds_openDatagram (m : Mem) (srcPort dstPort : UInt16) (length : Nat) :
    Holds (openDatagram m srcPort dstPort length) 34
      (be16 srcPort ++ be16 dstPort ++ be16 (UInt16.ofNat (length + 8)) ++ be16 0) := by
  have source := holds_store m 34 (be16 srcPort)
  have dest := source.next 36 (be16 dstPort) rfl
  have size := dest.next 38 (be16 (UInt16.ofNat (length + 8))) rfl
  exact size.next 40 (be16 0) rfl

theorem holds_apart_openDatagram {m : Mem} {start : Nat} {bytes : List UInt8}
    (holds : Holds m start bytes) (apart : start + bytes.length ≤ 34 ∨ 42 ≤ start)
    (srcPort dstPort : UInt16) (length : Nat) :
    Holds (openDatagram m srcPort dstPort length) start bytes := by
  have source := holds.keep 34 (be16 srcPort) (by simp; omega)
  have dest := source.keep 36 (be16 dstPort) (by simp; omega)
  have size := dest.keep 38 (be16 (UInt16.ofNat (length + 8))) (by simp; omega)
  exact size.keep 40 (be16 0) (by simp; omega)

theorem holds_padOdd {m : Mem} {start length : Nat} {bytes : List UInt8}
    (holds : Holds m start bytes) (below : start + bytes.length ≤ 42 + length) :
    Holds (padOdd m length) start bytes := by
  unfold padOdd
  split
  · exact holds.keep _ [0] (.inl below)
  · exact holds

theorem padOdd_padding (m : Mem) {length : Nat} (odd : length % 2 = 1) :
    padOdd m length (42 + length) = 0 := by
  simp [padOdd, odd, store8, store, payloadOffset]

theorem holds_udpFrame (w : World σ) (srcPort dstPort : UInt16) {payload : List UInt8}
    (inSlot : Holds w.txbuffer 42 payload) :
    Holds (udpFrame w srcPort dstPort payload.length) 0
      (udpImage w.cachedMac w.myMac w.myIp w.cachedIp srcPort dstPort payload) := by
  let m := putIpHeader (fillEthHeader w.txbuffer w.cachedMac w.myMac ethertypeIp)
    (payload.length + sizeofUdpFrame) ipProtoUdp w.myIp (be32 w.cachedIp)
  let opened := padOdd (openDatagram m srcPort dstPort payload.length) payload.length
  let pseudo := pseudoBytes w.myIp w.cachedIp (UInt16.ofNat (payload.length + 8))
  have headers : Holds opened 0 _ :=
    holds_padOdd (holds_apart_openDatagram (holds_headers w.txbuffer w.cachedMac w.myMac
      (payload.length + sizeofUdpFrame) ipProtoUdp w.myIp w.cachedIp) (.inl (by simp)) srcPort
      dstPort payload.length) (by simp; omega)
  have blank : Holds opened 34 (be16 srcPort ++ be16 dstPort ++
      be16 (UInt16.ofNat (payload.length + 8)) ++ be16 0 ++ payload) := by
    have body : Holds m 42 payload := holds_above_headers inSlot (by omega) ..
    apply holds_padOdd _ (by simp; omega)
    apply holds_append.mpr
    exact ⟨holds_openDatagram .., holds_apart_openDatagram body (.inr (Nat.le_refl _)) ..⟩
  have running : ipChecksum 0 (pseudoHeader w.myIp w.cachedIp (payload.length + 8)) 0 12 false =
      sum pseudo := by
    rw [ipChecksum_running]
    exact congrArg sum (holds_pseudoHeader w.myIp w.cachedIp (payload.length + 8))
  have length : pseudo.length = 12 := pseudoBytes_length ..
  have computed := udpChecksum_eq blank length rfl (padOdd_padding _)
  have filled := blank.fill 40 (be16 (UInt16.ofNat (ipChecksum (sum pseudo) opened 34
    (8 + (payload.length + payload.length % 2)) true))) (by simp) rfl
  have frame : udpFrame w srcPort dstPort payload.length = store opened 40 (be16 (UInt16.ofNat
      (ipChecksum (sum pseudo) opened 34 (8 + (payload.length + payload.length % 2)) true))) := by
    rw [← running]
    rfl
  rw [frame]
  apply holds_append.mpr
  constructor
  · exact headers.keep 40 _ (.inl (by simp))
  · rw [List.length_append, ethernetHeader_length, ipHeader_length]
    rw [computed] at filled ⊢
    simpa [udpDatagram, withChecksum, pseudo] using filled

/-- The echo reply before its checksum is known. -/
def openEcho (m : Mem) (f : RxFrame) (length : Nat) : Mem :=
  store16 (store (store (store (store8 (store8 m 34 icmpEchoReply) 35 0) 38 (load f.raw 38 2)) 40
    (load f.raw 40 2)) 42 (load f.raw 42 length)) 36 0

theorem holds_openEcho (m : Mem) (f : RxFrame) (length : Nat) :
    Holds (openEcho m f length) 34
      ([icmpEchoReply, 0] ++ be16 0 ++ load f.raw 38 (4 + length)) := by
  have type := (holds_store m 34 [icmpEchoReply]).next 35 [0] rfl
  have identifier := type.keep 38 (load f.raw 38 2) (.inl (by simp))
  have sequence := identifier.keep 40 (load f.raw 40 2) (.inl (by simp))
  have payload := sequence.keep 42 (load f.raw 42 length) (.inl (by simp))
  have repeated : Holds (store (store (store (store8 (store8 m 34 icmpEchoReply) 35 0) 38
      (load f.raw 38 2)) 40 (load f.raw 40 2)) 42 (load f.raw 42 length)) 38
      (load f.raw 38 (4 + length)) := by
    have pieces := ((holds_store (store8 (store8 m 34 icmpEchoReply) 35 0) 38
      (load f.raw 38 2)).next 40 (load f.raw 40 2) (by simp)).next 42 (load f.raw 42 length)
      (by simp)
    rwa [load_append, load_append f.raw 38 2 2]
  apply holds_append.mpr
  exact ⟨payload.next 36 (be16 0) rfl, repeated.keep 36 (be16 0) (.inr (by simp))⟩

theorem holds_below_openEcho {m : Mem} {start : Nat} {bytes : List UInt8}
    (holds : Holds m start bytes) (below : start + bytes.length ≤ 34) (f : RxFrame)
    (length : Nat) : Holds (openEcho m f length) start bytes := by
  have type := holds.keep 34 [icmpEchoReply] (.inl (by omega))
  have code := type.keep 35 [0] (.inl (by omega))
  have identifier := code.keep 38 (load f.raw 38 2) (.inl (by omega))
  have sequence := identifier.keep 40 (load f.raw 40 2) (.inl (by omega))
  have payload := sequence.keep 42 (load f.raw 42 length) (.inl (by omega))
  exact payload.keep 36 (be16 0) (.inl (by omega))

theorem holds_icmpFrame (f : RxFrame) (w : World σ) (length : Nat) :
    Holds (icmpFrame f w length) 0
      (echoImage (srcMac f) w.myMac w.myIp (ipSrc f) (load f.raw 38 (4 + length))) := by
  have source : load f.raw 26 4 = be32 (ipSrc f) := (be32_ofBe32 _ (load_length ..)).symm
  let opened := openEcho (putIpHeader (fillEthHeader w.txbuffer (srcMac f) w.myMac ethertypeIp)
    (length + sizeofIcmpFrame) ipProtoIcmp w.myIp (be32 (ipSrc f))) f length
  let summed := 2 * ((4 + length) / 2)
  have frame : icmpFrame f w length = store opened 36 (be16 (UInt16.ofNat
      (ipChecksum 0 opened 34 (length + 8) true))) := by
    unfold icmpFrame
    rw [source]
    rfl
  have headers : Holds opened 0 _ := holds_below_openEcho (holds_headers w.txbuffer (srcMac f)
    w.myMac (length + sizeofIcmpFrame) ipProtoIcmp w.myIp (ipSrc f)) (by simp) f length
  have blank : Holds opened 34 _ := holds_openEcho _ f length
  have covered : load opened 34 (2 * ((length + 8) / 2)) =
      [icmpEchoReply, 0] ++ be16 0 ++ (load f.raw 38 (4 + length)).take summed := by
    have words : 2 * ((length + 8) / 2) = 4 + summed := by omega
    have header : ([icmpEchoReply, 0] ++ be16 0).length = 4 := rfl
    rw [blank.load_take (by simp; omega), words, ← header, List.take_length_add_append]
  have computed : UInt16.ofNat (ipChecksum 0 opened 34 (length + 8) true) = checksum
      ([icmpEchoReply, 0] ++ be16 0 ++ (load f.raw 38 (4 + length)).take summed) :=
    (ofNat_ipChecksum [] rfl opened 34 (length + 8)).trans (congrArg checksum covered)
  have filled := blank.fill 36 (be16 (UInt16.ofNat (ipChecksum 0 opened 34 (length + 8) true)))
    (by simp) rfl
  rw [frame]
  apply holds_append.mpr
  constructor
  · have total : (load f.raw 38 (4 + length)).length + 24 = length + sizeofIcmpFrame := by
      rw [load_length, sizeofIcmpFrame]
      omega
    rw [total]
    exact headers.keep 36 _ (.inl (by simp))
  · rw [List.length_append, ethernetHeader_length, ipHeader_length]
    simpa [echoReply, withChecksum, computed, summed] using filled

/-! ## Transmissions -/

/-- The MAC is handed `frame`; besides, only the transmit slots change. -/
def Transmits (w w' : World σ) (frame : List UInt8) : Prop :=
  ∃ slots, w' = { w with
    txSlots := slots
    txslot := (w.txslot + 1) % ethmacTxSlots
    trace := w.trace ++ [.transmit frame] }

theorem Transmits.trace {w w' : World σ} {frame : List UInt8} (sent : Transmits w w' frame) :
    w'.trace = w.trace ++ [Obs.transmit frame] := by
  obtain ⟨slots, rfl⟩ := sent
  rfl

theorem load_padded (m : Mem) (txlen : Nat) : load (padded m txlen).1 0 (padded m txlen).2 =
    load m 0 txlen ++ List.replicate (100 - txlen) 0 := by
  unfold padded
  split
  next short =>
    obtain ⟨gap, total⟩ : ∃ gap, txlen + gap = 100 := ⟨100 - txlen, by omega⟩
    have rest : 100 - txlen = gap := by omega
    have zeros := load_store m txlen (List.replicate gap 0)
    rw [List.length_replicate] at zeros
    rw [rest, ← total, load_append, load_store_outside m (.inl (by omega)), Nat.zero_add, zeros]
  next long =>
    have none : 100 - txlen = 0 := by omega
    rw [none, List.replicate_zero, List.append_nil]

theorem sendPacket_transmits (w : World σ) {m : Mem} {bytes : List UInt8}
    (holds : Holds m 0 bytes) : Transmits w (sendPacket (w.setTxbuffer m) bytes.length)
      (bytes ++ List.replicate (100 - bytes.length) 0) := by
  have current : (w.setTxbuffer m).txbuffer = m := by
    simp [World.setTxbuffer, World.txbuffer]
  have sent := FirmwareEffects.sendPacket_trace (w.setTxbuffer m) bytes.length
  rw [current, load_padded, holds] at sent
  have effect : sendPacket (w.setTxbuffer m) bytes.length = { w with
      txSlots := (sendPacket (w.setTxbuffer m) bytes.length).txSlots
      txslot := (w.txslot + 1) % ethmacTxSlots
      trace := (sendPacket (w.setTxbuffer m) bytes.length).trace } := by
    simp only [sendPacket, World.setTxbuffer, World.log]
  rw [sent] at effect
  exact ⟨_, effect⟩

theorem sendArp_transmits (w : World σ) (destmac : Mac) (opcode : UInt16) (targetMac : Mac)
    (targetIp : UInt32) : Transmits w (sendArp w destmac opcode targetMac targetIp)
      (arpImage destmac w.myMac opcode w.myIp targetMac targetIp ++ List.replicate 58 0) := by
  unfold sendArp
  extract_lets m1 m2 m3 m4 m5 m6 m7 m8 m9 m10 m11
  have holds : Holds m11 0 (arpImage destmac w.myMac opcode w.myIp targetMac targetIp ++
      List.replicate 18 0) := by
    have h1 : Holds m1 0 _ := holds_fillEthHeader w.txbuffer destmac w.myMac ethertypeArp
    have h2 := h1.next 14 (be16 arpHwtypeEthernet) (by simp)
    have h3 := h2.next 16 (be16 arpProtoIp) (by simp)
    have h4 := h3.next 18 [6] (by simp)
    have h5 := h4.next 19 [4] (by simp)
    have h6 := h5.next 20 (be16 opcode) (by simp)
    have h7 := h6.next 22 w.myMac.toList (by simp)
    have h8 := h7.next 28 (be32 w.myIp) (by simp)
    have h9 := h8.next 32 targetMac.toList (by simp)
    have h10 := h9.next 38 (be32 targetIp) (by simp)
    have h11 : Holds m11 0 _ := h10.next 42 (List.replicate 18 0) (by simp)
    simpa only [arpImage, List.append_assoc, List.cons_append, List.nil_append] using h11
  have length : (arpImage destmac w.myMac opcode w.myIp targetMac targetIp ++
      List.replicate 18 0).length = arpPacketLength := by
    rw [List.length_append, arpImage_length, List.length_replicate]
    rfl
  have sent := sendPacket_transmits w holds
  rw [length, List.append_assoc, List.replicate_append_replicate] at sent
  exact sent

/-- What lies between the datagram and the end of a minimum-length frame: the zero byte
of an odd payload, then whatever the slot held. -/
def udpGap (slot : Mem) (length : Nat) : List UInt8 :=
  load (padOdd slot length) (42 + length) (18 - length)

theorem padOdd_congr {m m' : Mem} {i : Nat} (same : m i = m' i) (length : Nat) :
    padOdd m length i = padOdd m' length i := by
  unfold padOdd
  split
  · simp only [store8, store, same]
  · exact same

theorem load_udpFrame_gap (w : World σ) (srcPort dstPort : UInt16) (length : Nat) :
    load (udpFrame w srcPort dstPort length) (42 + length) (18 - length) =
      udpGap w.txbuffer length := by
  let opened := openDatagram (putIpHeader (fillEthHeader w.txbuffer w.cachedMac w.myMac ethertypeIp)
    (length + sizeofUdpFrame) ipProtoUdp w.myIp (be32 w.cachedIp)) srcPort dstPort length
  have untouched : ∀ i, 42 ≤ i → opened i = w.txbuffer i := by
    intro i above
    have kept : Holds opened i (load w.txbuffer i 1) :=
      holds_apart_openDatagram (holds_above_headers (holds_load w.txbuffer i 1) (by omega) ..)
        (.inr above) ..
    simpa [Holds, load] using kept
  have behind : ∀ checksum, load (store16 (padOdd opened length) 40 checksum) (42 + length)
      (18 - length) = load (padOdd opened length) (42 + length) (18 - length) :=
    fun checksum => load_store16_outside _ checksum (.inr (by omega))
  refine (behind _).trans (load_congr fun i low high => ?_)
  exact padOdd_congr (untouched i (by omega)) length

theorem udpTxlen_eq (length : Nat) : udpTxlen length = max 60 (42 + length) := by
  have sizes : sizeofEthernetHeader = 14 ∧ sizeofUdpFrame = 28 ∧ arpPacketLength = 60 :=
    ⟨rfl, rfl, rfl⟩
  unfold udpTxlen
  dsimp only
  split <;> omega

theorem udpSend_transmits {w : World σ} (srcPort dstPort : UInt16) {payload : List UInt8}
    (inSlot : Holds w.txbuffer 42 payload) (peer : w.cachedMac ≠ Mac.zero)
    (fits : payload.length ≤ maxPayload) :
    ∃ w', udpSend w srcPort dstPort payload.length = (true, w') ∧ Transmits w w'
      (udpImage w.cachedMac w.myMac w.myIp w.cachedIp srcPort dstPort payload ++
        udpGap w.txbuffer payload.length ++
        List.replicate (100 - udpTxlen payload.length) 0) := by
  have image := holds_udpFrame w srcPort dstPort inSlot
  have gap := load_udpFrame_gap w srcPort dstPort payload.length
  have gapLength : (udpGap w.txbuffer payload.length).length = 18 - payload.length :=
    load_length ..
  have whole : Holds (udpFrame w srcPort dstPort payload.length) 0
      (udpImage w.cachedMac w.myMac w.myIp w.cachedIp srcPort dstPort payload ++
        udpGap w.txbuffer payload.length) := by
    apply holds_append.mpr
    constructor
    · exact image
    · rw [udpImage_length, Nat.zero_add, ← gap]
      exact holds_load ..
  have length : (udpImage w.cachedMac w.myMac w.myIp w.cachedIp srcPort dstPort payload ++
      udpGap w.txbuffer payload.length).length = udpTxlen payload.length := by
    rw [List.length_append, udpImage_length, gapLength, udpTxlen_eq]
    omega
  have sent := sendPacket_transmits w whole
  rw [length] at sent
  refine ⟨_, ?_, sent⟩
  rw [udpSend, if_neg peer, if_neg (Nat.not_lt.mpr fits)]

/-- A caller writes the payload to `udp_get_tx_buffer()` and calls `udp_send`. -/
def sendPayload (w : World σ) (srcPort dstPort : UInt16) (payload : List UInt8) : Bool × World σ :=
  udpSend (w.setTxbuffer (store w.txbuffer payloadOffset payload)) srcPort dstPort payload.length

theorem sendPayload_transmits {w : World σ} (srcPort dstPort : UInt16) {payload : List UInt8}
    (peer : w.cachedMac ≠ Mac.zero) (fits : payload.length ≤ maxPayload) :
    ∃ w', sendPayload w srcPort dstPort payload = (true, w') ∧ Transmits w w'
      (udpImage w.cachedMac w.myMac w.myIp w.cachedIp srcPort dstPort payload ++
        udpGap (store w.txbuffer payloadOffset payload) payload.length ++
        List.replicate (100 - udpTxlen payload.length) 0) := by
  let filled := w.setTxbuffer (store w.txbuffer payloadOffset payload)
  have current : filled.txbuffer = store w.txbuffer payloadOffset payload := by
    simp [filled, World.setTxbuffer, World.txbuffer]
  have inSlot : Holds filled.txbuffer 42 payload := by
    rw [current]
    exact holds_store _ 42 payload
  obtain ⟨w', sent, slots, effect⟩ := udpSend_transmits srcPort dstPort inSlot peer fits
  rw [current] at effect
  exact ⟨w', sent, slots, effect⟩

theorem sendPayload_refused {w : World σ} (srcPort dstPort : UInt16) {payload : List UInt8}
    (refused : w.cachedMac = Mac.zero ∨ maxPayload < payload.length) :
    sendPayload w srcPort dstPort payload =
      (false, w.setTxbuffer (store w.txbuffer payloadOffset payload)) := by
  rw [sendPayload, udpSend]
  by_cases peerless : w.cachedMac = Mac.zero
  · exact if_pos peerless
  · exact (if_neg peerless).trans (if_pos (refused.resolve_left peerless))

theorem echoAnswer_transmits (f : RxFrame) (w : World σ)
    (total : sizeofIcmpFrame ≤ ipTotalLength f) :
    Transmits w (echoAnswer f w)
      (echoImage (srcMac f) w.myMac w.myIp (ipSrc f) (load f.raw 38 (ipTotalLength f - 24)) ++
        List.replicate (100 - (14 + ipTotalLength f)) 0) := by
  have sizes : sizeofIcmpFrame = 28 ∧ sizeofEthernetHeader = 14 := ⟨rfl, rfl⟩
  have repeated : 4 + (ipTotalLength f - sizeofIcmpFrame) = ipTotalLength f - 24 := by omega
  have holds := holds_icmpFrame f w (ipTotalLength f - sizeofIcmpFrame)
  rw [repeated] at holds
  have length : (echoImage (srcMac f) w.myMac w.myIp (ipSrc f)
      (load f.raw 38 (ipTotalLength f - 24))).length = 14 + ipTotalLength f := by
    rw [echoImage_length, load_length]
    omega
  have txlen : ipTotalLength f - sizeofIcmpFrame + sizeofEthernetHeader + sizeofIcmpFrame =
      14 + ipTotalLength f := by omega
  have sent := sendPacket_transmits w holds
  rw [length] at sent
  unfold echoAnswer
  dsimp only
  rw [txlen]
  exact sent

end Remote8008.Guarantees.WireImage
