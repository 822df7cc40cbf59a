import Remote8008.Guarantees.UnleasedSilence

/-!
# Leftover bytes in transmitted frames

firmware/udp.c:160-203,241-345,433-488,563-600. The transmit slots are reused and never
cleared. `send_packet` zeroes from `txlen` up to 100, but `udp_send` has by then raised
`txlen` to the 60 bytes of an ARP packet: for a payload below 17 bytes the gap in between
is sent as the slot held it. All other frames are their content followed by zeros, and do
not depend on the slots.
-/

namespace Remote8008.Guarantees.CleanFrames
open Lib.Memory Lib.BigEndian Lib.Machine
open Source.Firmware Source.UdpTransmit Source.UdpReceive Source.EbServe
open FirmwareEffects FrameDispatch TransmitFrame WireImage FrameFields

variable {σ : Type}

/-! ## Clean frames -/

/-- Length of the Ethernet header with the ARP body or the IP datagram. -/
def contentLength (frame : List UInt8) : Nat :=
  if field frame 12 2 = be16 ethertypeArp then 42 else 14 + ofBe (field frame 16 2)

structure Clean (frame : List UInt8) : Prop where
  long : 100 ≤ frame.length
  whole : contentLength frame ≤ frame.length
  zeros : ∀ byte ∈ frame.drop (contentLength frame), byte = 0

instance (frame : List UInt8) : Decidable (Clean frame) :=
  decidable_of_iff (100 ≤ frame.length ∧ contentLength frame ≤ frame.length ∧
      (frame.drop (contentLength frame)).all (· == 0))
    ⟨fun ⟨a, b, c⟩ => ⟨a, b, by simpa using c⟩, fun ⟨a, b, c⟩ => ⟨a, b, by simpa using c⟩⟩

theorem clean_of_content {content rest : List UInt8} (long : 100 ≤ (content ++ rest).length)
    (size : contentLength (content ++ rest) = content.length) (zeros : ∀ byte ∈ rest, byte = 0) :
    Clean (content ++ rest) where
  long := long
  whole := by simp [size]
  zeros := by simpa [size] using zeros

theorem contentLength_arp {destmac srcmac targetMac : Mac} {opcode : UInt16}
    {senderIp targetIp : UInt32} (rest : List UInt8) :
    contentLength (arpImage destmac srcmac opcode senderIp targetMac targetIp ++ rest) = 42 := by
  have whole := holds_ofBytes (arpImage destmac srcmac opcode senderIp targetMac targetIp ++ rest)
  have fields := arpFields_of_holds (holds_append.mp whole).1
  have type : field _ 12 2 = _ := field_of_holds whole fields.ethertype (by simp; omega)
  rw [contentLength, if_pos type]

theorem contentLength_ip {m : Mem} {frame : List UInt8} {destmac srcmac : Mac} {total : UInt16}
    {proto : UInt8} {srcIp dstIp : UInt32} (whole : Holds m 0 frame)
    (fields : IpFields m destmac srcmac total proto srcIp dstIp) (long : 34 ≤ frame.length) :
    contentLength frame = 14 + total.toNat := by
  have type : field frame 12 2 = be16 ethertypeIp :=
    field_of_holds whole fields.ethertype (by simp; omega)
  have length : field frame 16 2 = be16 total :=
    field_of_holds whole fields.totalLength (by simp; omega)
  have other : be16 ethertypeIp ≠ be16 ethertypeArp := by decide
  rw [contentLength, type, if_neg other, length, ofBe_be16]

theorem arpFrame_clean (destmac srcmac : Mac) (opcode : UInt16) (senderIp : UInt32)
    (targetMac : Mac) (targetIp : UInt32) :
    Clean (arpImage destmac srcmac opcode senderIp targetMac targetIp ++
      List.replicate 58 0) := by
  apply clean_of_content
  · rw [List.length_append, arpImage_length, List.length_replicate]
  · rw [contentLength_arp, arpImage_length]
  · intro byte member
    exact List.eq_of_mem_replicate member

/-- A frame of an IP datagram of the stated length and zeros is clean. -/
theorem ipFrame_clean {destmac srcmac : Mac} {proto : UInt8} {srcIp dstIp : UInt32}
    {body rest : List UInt8} (fits : 20 + body.length < 2 ^ 16)
    (long : 66 ≤ (body ++ rest).length) (zeros : ∀ byte ∈ rest, byte = 0) :
    Clean (ethernetHeader destmac srcmac ethertypeIp ++
      ipHeader (UInt16.ofNat (20 + body.length)) proto srcIp dstIp ++ body ++ rest) := by
  have whole := holds_ofBytes (ethernetHeader destmac srcmac ethertypeIp ++
    ipHeader (UInt16.ofNat (20 + body.length)) proto srcIp dstIp ++ body ++ rest)
  have fields := ipFields_of_holds (holds_append.mp (holds_append.mp whole).1).1
  rw [List.length_append] at long
  apply clean_of_content
  · simp only [List.length_append, ethernetHeader_length, ipHeader_length]
    omega
  · rw [contentLength_ip whole fields (by simp; omega), UInt16.toNat_ofNat', Nat.mod_eq_of_lt fits]
    simp only [List.length_append, ethernetHeader_length, ipHeader_length]
    omega
  · exact zeros

theorem udpGap_zeros (slot : Mem) {length : Nat} (long : 17 ≤ length) :
    ∀ byte ∈ udpGap slot length, byte = 0 := by
  intro byte member
  by_cases odd : length = 17
  · subst odd
    obtain rfl : byte = padOdd slot 17 (42 + 17) := by simpa [udpGap, load] using member
    exact padOdd_padding slot rfl
  · have none : 18 - length = 0 := by omega
    simp [udpGap, none, load] at member

theorem udpFrame_clean {slot : Mem} {destmac srcmac : Mac} {srcIp dstIp : UInt32}
    {srcPort dstPort : UInt16} {payload : List UInt8} (long : 17 ≤ payload.length)
    (fits : payload.length ≤ maxPayload) :
    Clean (udpImage destmac srcmac srcIp dstIp srcPort dstPort payload ++
      udpGap slot payload.length ++ List.replicate (100 - udpTxlen payload.length) 0) := by
  have limit : maxPayload = 2006 := rfl
  have total : payload.length + sizeofUdpFrame =
      20 + (udpDatagram srcIp dstIp srcPort dstPort payload).length := by
    rw [udpDatagram_length, sizeofUdpFrame]
    omega
  rw [List.append_assoc, udpImage, total]
  apply ipFrame_clean
  · rw [udpDatagram_length]
    omega
  · simp only [List.length_append, udpDatagram_length, udpGap, load_length,
      List.length_replicate, udpTxlen_eq]
    omega
  · intro byte member
    rcases List.mem_append.mp member with gap | padding
    · exact udpGap_zeros slot long byte gap
    · exact List.eq_of_mem_replicate padding

theorem echoFrame_clean {destmac srcmac : Mac} {srcIp dstIp : UInt32} {repeated : List UInt8}
    (fits : 24 + repeated.length < 2 ^ 16) {zeros : Nat} (long : 62 ≤ repeated.length + zeros) :
    Clean (echoImage destmac srcmac srcIp dstIp repeated ++ List.replicate zeros 0) := by
  have total : repeated.length + 24 = 20 + (echoReply repeated).length := by
    rw [echoReply_length]
    omega
  rw [echoImage, total]
  apply ipFrame_clean
  · rw [echoReply_length]
    omega
  · rw [List.length_append, echoReply_length, List.length_replicate]
    omega
  · intro byte member
    exact List.eq_of_mem_replicate member

/-! ## Sequences of transmissions -/

/-- The calls that transmit, and the settings they use. -/
inductive Transmission where
  /-- The payload is written to `udp_get_tx_buffer()` before `udp_send`. -/
  | send (srcPort dstPort : UInt16) (payload : List UInt8)
  | announce
  /-- An ARP request of `udp_arp_resolve`. -/
  | request (ip : UInt32)
  /-- A received frame, answered when it is an ARP or echo request. -/
  | receive (f : RxFrame)
  | setIp (ip : UInt32)
  | setPeer (ip : UInt32) (mac : Mac)

def perform (w : World σ) : Transmission → World σ
  | .send srcPort dstPort payload => (sendPayload w srcPort dstPort payload).2
  | .announce => udpAnnounceArp w
  | .request ip => sendArp w Mac.broadcast arpOpcodeRequest Mac.zero ip
  | .receive f => processFrame f w
  | .setIp ip => udpSetIp w ip
  | .setPeer ip mac => udpSetPeer w ip mac

/-- A payload that `udp_send` accepts leaves no gap below the minimum length. -/
def Long (w : World σ) : Transmission → Prop
  | .send _ _ payload =>
    w.cachedMac ≠ Mac.zero → payload.length ≤ maxPayload → 17 ≤ payload.length
  | _ => True

/-- What a step adds to the trace, judged by the frames in it. -/
def AddsClean (w w' : World σ) : Prop :=
  ∃ seen, w'.trace = w.trace ++ seen ∧ ∀ frame ∈ transmitted seen, Clean frame

theorem AddsClean.silent {w w' : World σ} (same : w'.trace = w.trace) : AddsClean w w' :=
  ⟨[], by simp [same], by simp⟩

theorem AddsClean.transmit {w w' : World σ} {frame : List UInt8} (sent : Transmits w w' frame)
    (clean : Clean frame) : AddsClean w w' := by
  obtain ⟨slots, rfl⟩ := sent
  exact ⟨[.transmit frame], rfl, by simpa using clean⟩

theorem AddsClean.trans {w w' w'' : World σ} (first : AddsClean w w') (second : AddsClean w' w'') :
    AddsClean w w'' := by
  obtain ⟨early, trace, cleanEarly⟩ := first
  obtain ⟨late, later, cleanLate⟩ := second
  refine ⟨early ++ late, by rw [later, trace, List.append_assoc], ?_⟩
  intro frame member
  rw [transmitted_append, List.mem_append] at member
  exact member.elim (cleanEarly frame) (cleanLate frame)

theorem processFrame_addsClean (f : RxFrame) (w : World σ) : AddsClean w (processFrame f w) := by
  have handled := processFrame_handled f w
  generalize processFrame f w = w' at handled
  cases handled with
  | ignored => exact .silent rfl
  | learned _ => exact .silent rfl
  | answeredArp _ => exact .transmit (sendArp_transmits ..) (arpFrame_clean ..)
  | answeredEcho request =>
    have sizes : sizeofIcmpFrame = 28 ∧ sizeofEthernetHeader = 14 ∧ ethmacSlotSize = 2048 :=
      ⟨rfl, rfl, rfl⟩
    have low := request.totalLow
    have high := request.totalHigh
    have slot := request.high
    apply AddsClean.transmit (echoAnswer_transmits f w low)
    apply echoFrame_clean
    · rw [load_length]
      omega
    · rw [load_length]
      omega
  | unclaimed => exact .silent rfl
  | delivered target _ _ =>
    obtain ⟨seen, adds, nothing⟩ :=
      UnleasedSilence.invoke_adds { w with lastSrcMac := srcMac f } (datagram f) target
    exact ⟨seen, adds.trace, by simp [nothing]⟩

theorem perform_addsClean (w : World σ) {t : Transmission} (long : Long w t) :
    AddsClean w (perform w t) := by
  cases t with
  | send srcPort dstPort payload =>
    by_cases refused : w.cachedMac = Mac.zero ∨ maxPayload < payload.length
    · rw [perform, sendPayload_refused srcPort dstPort refused]
      exact .silent rfl
    · obtain ⟨peer, short⟩ := not_or.mp refused
      have fits := Nat.not_lt.mp short
      obtain ⟨w', sent, effect⟩ := sendPayload_transmits srcPort dstPort peer fits
      rw [perform, sent]
      exact .transmit effect (udpFrame_clean (long peer fits) fits)
  | announce =>
    rw [perform, udpAnnounceArp]
    split
    · exact .silent rfl
    · exact .transmit (sendArp_transmits ..) (arpFrame_clean ..)
  | request ip => exact .transmit (sendArp_transmits ..) (arpFrame_clean ..)
  | receive f => exact processFrame_addsClean f w
  | setIp ip => exact .silent rfl
  | setPeer ip mac => exact .silent rfl

/-! ## Independence of the slots -/

def SameButSlots (w w' : World σ) : Prop := ∃ slots, w' = { w with txSlots := slots }

theorem SameButSlots.ite {condition : Prop} [Decidable condition] {yes no yes' no' : World σ}
    (first : condition → SameButSlots yes yes') (second : ¬ condition → SameButSlots no no') :
    SameButSlots (if condition then yes else no) (if condition then yes' else no') := by
  split
  next holds => exact first holds
  next fails => exact second fails

theorem SameButSlots.transmit {w after after' : World σ} {slots : Nat → Mem} {frame : List UInt8}
    (sent : Transmits w after frame) (sent' : Transmits { w with txSlots := slots } after' frame) :
    SameButSlots after after' := by
  obtain ⟨left, rfl⟩ := sent
  obtain ⟨right, rfl⟩ := sent'
  exact ⟨right, rfl⟩

section
variable (w : World σ) (slots : Nat → Mem)

theorem sendArp_blind (destmac : Mac) (opcode : UInt16) (targetMac : Mac) (targetIp : UInt32) :
    SameButSlots (sendArp w destmac opcode targetMac targetIp)
      (sendArp { w with txSlots := slots } destmac opcode targetMac targetIp) :=
  .transmit (sendArp_transmits ..) (sendArp_transmits { w with txSlots := slots } ..)

theorem invoke_blind (d : Datagram) (target : Callback) :
    SameButSlots (invoke w d target) (invoke { w with txSlots := slots } d target) := by
  cases target with
  | dhcp => exact .ite (fun _ => ⟨slots, rfl⟩) fun _ => ⟨slots, rfl⟩
  | eb => exact .ite (fun _ => ⟨slots, rfl⟩) fun _ => .ite (fun _ => ⟨slots, rfl⟩) fun _ =>
      .ite (fun _ => ⟨slots, rfl⟩) fun _ => ⟨slots, rfl⟩

theorem deliverTo_blind (f : RxFrame) (choice : Option Callback) :
    SameButSlots (deliverTo f w choice) (deliverTo f { w with txSlots := slots } choice) := by
  cases choice with
  | none => exact ⟨slots, rfl⟩
  | some target => exact invoke_blind { w with lastSrcMac := srcMac f } slots (datagram f) target

theorem processFrame_blind (f : RxFrame) :
    SameButSlots (processFrame f w) (processFrame f { w with txSlots := slots }) := by
  rw [processFrame_eq, processFrame_eq]
  apply SameButSlots.ite
  · exact fun _ => ⟨slots, rfl⟩
  · intro _
    apply SameButSlots.ite
    · exact fun _ => sendArp_blind w slots ..
    · intro _
      apply SameButSlots.ite
      · exact fun request => .transmit (echoAnswer_transmits f w request.totalLow)
          (echoAnswer_transmits f { w with txSlots := slots } request.totalLow)
      · exact fun _ => .ite (fun _ => deliverTo_blind w slots f _) fun _ => ⟨slots, rfl⟩

theorem sendPayload_blind (srcPort dstPort : UInt16) {payload : List UInt8}
    (long : Long w (.send srcPort dstPort payload)) :
    SameButSlots (sendPayload w srcPort dstPort payload).2
      (sendPayload { w with txSlots := slots } srcPort dstPort payload).2 := by
  by_cases refused : w.cachedMac = Mac.zero ∨ maxPayload < payload.length
  · have other : ({ w with txSlots := slots } : World σ).cachedMac = Mac.zero ∨
        maxPayload < payload.length := refused
    rw [sendPayload_refused srcPort dstPort refused, sendPayload_refused srcPort dstPort other]
    exact ⟨_, rfl⟩
  · obtain ⟨peer, short⟩ := not_or.mp refused
    have fits := Nat.not_lt.mp short
    obtain ⟨left, sent, effect⟩ := sendPayload_transmits srcPort dstPort peer fits
    have other : ({ w with txSlots := slots } : World σ).cachedMac ≠ Mac.zero := peer
    obtain ⟨right, sent', effect'⟩ := sendPayload_transmits srcPort dstPort other fits
    rw [sent, sent']
    -- both gaps are zeros of the same length
    have gap : ∀ slot, udpGap slot payload.length = List.replicate (18 - payload.length) 0 :=
      fun slot => List.eq_replicate_iff.mpr ⟨load_length .., udpGap_zeros slot (long peer fits)⟩
    rw [gap] at effect effect'
    exact .transmit effect effect'

theorem perform_blind {t : Transmission} (long : Long w t) :
    SameButSlots (perform w t) (perform { w with txSlots := slots } t) := by
  cases t with
  | send srcPort dstPort payload => exact sendPayload_blind w slots srcPort dstPort long
  | announce => exact .ite (fun _ => ⟨slots, rfl⟩) fun _ => sendArp_blind w slots ..
  | request ip => exact sendArp_blind w slots ..
  | receive f => exact processFrame_blind w slots f
  | setIp ip => exact ⟨slots, rfl⟩
  | setPeer ip mac => exact ⟨slots, rfl⟩

end

/-! ## Runs -/

theorem run_addsClean {w : World σ} {ts : List Transmission} (long : Stepwise perform Long w ts) :
    AddsClean w (run perform w ts) :=
  run_invariant_stepwise (AddsClean w)
    (fun v _ fine sofar => sofar.trans (perform_addsClean v fine)) long (.silent rfl)

theorem run_blind {w : World σ} {ts : List Transmission} (long : Stepwise perform Long w ts)
    (slots : Nat → Mem) :
    SameButSlots (run perform w ts) (run perform { w with txSlots := slots } ts) := by
  refine run_related SameButSlots ?_ long ⟨slots, rfl⟩
  rintro v _ t fine ⟨other, rfl⟩
  exact perform_blind v other fine

/-- A gap reaches up to offset 59, and no store of a short datagram does. -/
theorem udpGap_stale (slot : Mem) {payload : List UInt8} (short : payload.length < 17) :
    slot 59 ∈ udpGap (store slot payloadOffset payload) payload.length := by
  have kept : padOdd (store slot payloadOffset payload) payload.length 59 = slot 59 := by
    have payloadKept : store slot payloadOffset payload 59 = slot 59 :=
      store_outside _ _ _ (.inr (by simp only [payloadOffset]; omega))
    unfold padOdd
    split
    · rw [store8, store_outside _ _ _ (.inr (by simp [payloadOffset]; omega)), payloadKept]
    · exact payloadKept
  have index : 42 + payload.length + (17 - payload.length) = 59 := by omega
  unfold udpGap load
  refine List.mem_map.mpr ⟨17 - payload.length, List.mem_range.mpr (by omega), ?_⟩
  rw [index, kept]

theorem udpFrame_unclean {slot : Mem} {destmac srcmac : Mac} {srcIp dstIp : UInt32}
    {srcPort dstPort : UInt16} {payload : List UInt8} {stale : UInt8} (nonzero : stale ≠ 0)
    (fits : payload.length ≤ maxPayload) (gap : stale ∈ udpGap slot payload.length) :
    ¬ Clean (udpImage destmac srcmac srcIp dstIp srcPort dstPort payload ++
      udpGap slot payload.length ++ List.replicate (100 - udpTxlen payload.length) 0) := by
  intro clean
  rw [List.append_assoc] at clean
  let rest := udpGap slot payload.length ++ List.replicate (100 - udpTxlen payload.length) 0
  have whole := holds_ofBytes (udpImage destmac srcmac srcIp dstIp srcPort dstPort payload ++ rest)
  have fields := ipFields_of_holds (holds_append.mp (holds_append.mp whole).1).1
  have sizes : maxPayload = 2006 ∧ sizeofUdpFrame = 28 := ⟨rfl, rfl⟩
  have size : contentLength (udpImage destmac srcmac srcIp dstIp srcPort dstPort payload ++ rest) =
      (udpImage destmac srcmac srcIp dstIp srcPort dstPort payload).length := by
    rw [contentLength_ip whole fields (by simp; omega), UInt16.toNat_ofNat', udpImage_length]
    omega
  have zeros := clean.zeros
  rw [size, List.drop_left] at zeros
  exact nonzero (zeros stale (List.mem_append_left _ gap))

theorem short_datagram_unclean (w : World σ) (srcPort dstPort : UInt16) {payload : List UInt8}
    (peer : w.cachedMac ≠ Mac.zero) (short : payload.length < 17) : ∃ frame,
    (perform { w with txSlots := fun _ _ => 0xff } (.send srcPort dstPort payload)).trace =
      w.trace ++ [.transmit frame] ∧ ¬ Clean frame := by
  have fits : payload.length ≤ maxPayload := by
    have limit : maxPayload = 2006 := rfl
    omega
  have other : ({ w with txSlots := fun _ _ => 0xff } : World σ).cachedMac ≠ Mac.zero := peer
  obtain ⟨w', sent, slots, rfl⟩ := sendPayload_transmits srcPort dstPort other fits
  refine ⟨_, congrArg World.trace (congrArg Prod.snd sent), ?_⟩
  exact udpFrame_unclean (by decide) fits (udpGap_stale (fun _ => 0xff) short)

/-- As long as every payload that `udp_send` accepts has at least 17 bytes, each frame of a
run is its content followed by zeros, and what the slots held before makes no difference to
the wire. A datagram with a shorter payload can always carry leftover bytes. -/
theorem transmitted_frames_clean :
    (∀ (w : World σ) (ts : List Transmission), Stepwise perform Long w ts →
      (∃ seen, (run perform w ts).trace = w.trace ++ seen ∧
        ∀ frame ∈ transmitted seen, Clean frame) ∧
      ∀ slots, (run perform { w with txSlots := slots } ts).trace = (run perform w ts).trace) ∧
    ∀ (w : World σ) (srcPort dstPort : UInt16) (payload : List UInt8),
      w.cachedMac ≠ Mac.zero → payload.length < 17 → ∃ slots frame,
        (perform { w with txSlots := slots } (.send srcPort dstPort payload)).trace =
          w.trace ++ [.transmit frame] ∧ ¬ Clean frame := by
  constructor
  · intro w ts long
    refine ⟨run_addsClean long, fun slots => ?_⟩
    obtain ⟨left, same⟩ := run_blind long slots
    rw [same]
  · intro w srcPort dstPort payload peer short
    exact ⟨_, short_datagram_unclean w srcPort dstPort peer short⟩

/-- A board with 192.168.1.2 as its peer. -/
def peeredBoard : World Unit :=
  udpSetPeer RequestServer.listening 0xc0a80102 #v[2, 0, 0, 0, 0, 7]

/-- The reply to a probe, after two longer datagrams have used both slots. -/
theorem probe_reply_carries_leftovers :
    let longer : Transmission := .send 1234 1234 (List.replicate 20 0xaa)
    let reply : Transmission := .send 1234 1234 (Source.Eb8008.headerBytes true ++ be32 0)
    ∃ frame ∈ transmitted (run perform peeredBoard [longer, longer, reply]).trace,
      field frame 54 6 = List.replicate 6 0xaa ∧ ¬ Clean frame := by
  decide +kernel

end Remote8008.Guarantees.CleanFrames
