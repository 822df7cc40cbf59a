import Remote8008.Guarantees.FirmwareEffects
import Remote8008.Source.UdpPing

/-!
# The outcomes of a received frame

firmware/udp.c:241-286,563-703. `process_frame` tests a frame field by field until one
of six things happens to it. `Handled` lists them with everything the tests have shown
by then, so that what is proved about received frames needs no other look at the tests.
-/

namespace Remote8008.Guarantees.FrameDispatch
open Lib.Memory Source.Firmware Source.UdpTransmit Source.UdpReceive Source.UdpPing
open FirmwareEffects

variable {σ : Type}

/-- The tests on an ARP frame before its opcode is looked at. -/
structure WellFormedArp (f : RxFrame) : Prop where
  low : arpPacketLength ≤ f.len
  high : f.len ≤ ethmacSlotSize
  ethertype : ethertype f = ethertypeArp
  hwtype : load16 f.raw 14 = arpHwtypeEthernet
  proto : load16 f.raw 16 = arpProtoIp
  hwsize : f.raw 18 = 6
  protosize : f.raw 19 = 4

/-- An ARP reply whose sender says it has `ip`. -/
structure ArpReplyFrom (ip : UInt32) (f : RxFrame) : Prop extends WellFormedArp f where
  opcode : load16 f.raw 20 = arpOpcodeReply
  senderIp : load32 f.raw 28 = ip

/-- An ARP request that asks who has `ip`. -/
structure ArpRequestFor (ip : UInt32) (f : RxFrame) : Prop extends WellFormedArp f where
  opcode : load16 f.raw 20 = arpOpcodeRequest
  targetIp : load32 f.raw 38 = ip

/-- An ICMP echo request that a board with address `ip` takes as its own. -/
structure EchoRequestFor (ip : UInt32) (f : RxFrame) : Prop where
  low : sizeofEthernetHeader + sizeofIcmpFrame ≤ f.len
  high : f.len ≤ ethmacSlotSize
  ethertype : ethertype f = ethertypeIp
  version : ipVersion f = ipIpv4
  addressed : AddressedTo ip (ipDst f)
  proto : ipProto f = ipProtoIcmp
  totalLow : sizeofIcmpFrame ≤ ipTotalLength f
  totalHigh : sizeofEthernetHeader + ipTotalLength f ≤ f.len
  echo : f.raw 34 = icmpEcho

instance (f : RxFrame) : Decidable (WellFormedArp f) :=
  decidable_of_iff (arpPacketLength ≤ f.len ∧ f.len ≤ ethmacSlotSize ∧
      ethertype f = ethertypeArp ∧ load16 f.raw 14 = arpHwtypeEthernet ∧
      load16 f.raw 16 = arpProtoIp ∧ f.raw 18 = 6 ∧ f.raw 19 = 4)
    ⟨fun ⟨a, b, c, d, e, g, h⟩ => ⟨a, b, c, d, e, g, h⟩,
      fun ⟨a, b, c, d, e, g, h⟩ => ⟨a, b, c, d, e, g, h⟩⟩

instance (ip : UInt32) (f : RxFrame) : Decidable (ArpReplyFrom ip f) :=
  decidable_of_iff
    (WellFormedArp f ∧ load16 f.raw 20 = arpOpcodeReply ∧ load32 f.raw 28 = ip)
    ⟨fun ⟨a, b, c⟩ => ⟨a, b, c⟩, fun ⟨a, b, c⟩ => ⟨a, b, c⟩⟩

instance (ip : UInt32) (f : RxFrame) : Decidable (ArpRequestFor ip f) :=
  decidable_of_iff
    (WellFormedArp f ∧ load16 f.raw 20 = arpOpcodeRequest ∧ load32 f.raw 38 = ip)
    ⟨fun ⟨a, b, c⟩ => ⟨a, b, c⟩, fun ⟨a, b, c⟩ => ⟨a, b, c⟩⟩

instance (ip dst : UInt32) : Decidable (AddressedTo ip dst) :=
  inferInstanceAs (Decidable (dst = ip ∨ dst = limitedBroadcast ∨ dst = ip ||| 0xff))

instance (ip : UInt32) (f : RxFrame) : Decidable (EchoRequestFor ip f) :=
  decidable_of_iff (sizeofEthernetHeader + sizeofIcmpFrame ≤ f.len ∧ f.len ≤ ethmacSlotSize ∧
      ethertype f = ethertypeIp ∧ ipVersion f = ipIpv4 ∧ AddressedTo ip (ipDst f) ∧
      ipProto f = ipProtoIcmp ∧ sizeofIcmpFrame ≤ ipTotalLength f ∧
      sizeofEthernetHeader + ipTotalLength f ≤ f.len ∧ f.raw 34 = icmpEcho)
    ⟨fun ⟨a, b, c, d, e, g, h, i, j⟩ => ⟨a, b, c, d, e, g, h, i, j⟩,
      fun ⟨a, b, c, d, e, g, h, i, j⟩ => ⟨a, b, c, d, e, g, h, i, j⟩⟩

theorem filter_iff (ip dst : UInt32) :
    ¬ (dst ≠ ip ∧ dst ≠ limitedBroadcast ∧ dst ≠ ip ||| 0xff) ↔ AddressedTo ip dst := by
  unfold AddressedTo
  tauto

/-- The answer of `process_arp` to a request. -/
def arpAnswer (f : RxFrame) (w : World σ) : World σ :=
  sendArp w (loadMac f.raw 22) arpOpcodeReply (loadMac f.raw 22) (load32 f.raw 28)

/-- The answer of `process_icmp` to an echo request. -/
def echoAnswer (f : RxFrame) (w : World σ) : World σ :=
  let length := ipTotalLength f - sizeofIcmpFrame
  sendPacket (w.setTxbuffer (icmpFrame f w length))
    (length + sizeofEthernetHeader + sizeofIcmpFrame)

inductive Handled (f : RxFrame) (w : World σ) : World σ → Prop where
  | ignored : Handled f w w
  /-- The one-entry cache takes the sender's address. -/
  | learned (reply : ArpReplyFrom w.cachedIp f) :
      Handled f w { w with cachedMac := loadMac f.raw 22 }
  | answeredArp (request : ArpRequestFor w.myIp f) : Handled f w (arpAnswer f w)
  | answeredEcho (request : EchoRequestFor w.myIp f) : Handled f w (echoAnswer f w)
  /-- A datagram for which no callback is set. -/
  | unclaimed : Handled f w { w with lastSrcMac := srcMac f }
  | delivered (target : Callback) (shape : WellFormedUdp f)
      (chosen : chosenCallback w (ipDst f) = some target) :
      Handled f w (invoke { w with lastSrcMac := srcMac f } (datagram f) target)

theorem Handled.ite {f : RxFrame} {w yes no : World σ} {condition : Prop} [Decidable condition]
    (first : condition → Handled f w yes) (second : ¬ condition → Handled f w no) :
    Handled f w (if condition then yes else no) := by
  split
  next holds => exact first holds
  next fails => exact second fails

theorem processArp_handled {f : RxFrame} (w : World σ) (high : f.len ≤ ethmacSlotSize)
    (type : ethertype f = ethertypeArp) : Handled f w (processArp f w) := by
  refine .ite (fun _ => .ignored) fun short => .ite (fun _ => .ignored) fun hwtype =>
    .ite (fun _ => .ignored) fun proto => .ite (fun _ => .ignored) fun hwsize =>
    .ite (fun _ => .ignored) fun protosize => ?_
  have shape : WellFormedArp f := ⟨Nat.not_lt.mp short, high, type, not_not.mp hwtype,
    not_not.mp proto, not_not.mp hwsize, not_not.mp protosize⟩
  apply Handled.ite
  · exact fun opcode => .ite (fun sender => .learned ⟨shape, opcode, sender⟩) fun _ => .ignored
  · exact fun _ => .ite (fun opcode => .ite (fun target => .answeredArp ⟨shape, opcode, target⟩)
      fun _ => .ignored) fun _ => .ignored

theorem processIcmp_handled {f : RxFrame} {w : World σ} (high : f.len ≤ ethmacSlotSize)
    (type : ethertype f = ethertypeIp) (version : ipVersion f = ipIpv4)
    (addressed : AddressedTo w.myIp (ipDst f)) (proto : ipProto f = ipProtoIcmp) :
    Handled f w (processIcmp f w) := by
  refine .ite (fun _ => .ignored) fun short => .ite (fun _ => .ignored) fun totalLow =>
    .ite (fun _ => .ignored) fun totalHigh => .ite (fun echo => .answeredEcho ?_) fun _ => .ignored
  exact ⟨Nat.not_lt.mp short, high, type, version, addressed, proto, Nat.not_lt.mp totalLow,
    Nat.not_lt.mp totalHigh, echo⟩

theorem processUdp_handled {f : RxFrame} (w : World σ) (high : f.len ≤ ethmacSlotSize)
    (type : ethertype f = ethertypeIp) (version : ipVersion f = ipIpv4) :
    Handled f w (processUdp f w) := by
  refine .ite (fun _ => .ignored) fun short => .ite (fun _ => .ignored) fun totalLow =>
    .ite (fun _ => .ignored) fun totalHigh => .ite (fun _ => .ignored) fun proto =>
    .ite (fun _ => .ignored) fun udpLow => .ite (fun _ => .ignored) fun udpHigh => ?_
  have shape : WellFormedUdp f := ⟨Nat.not_lt.mp short, high, type, version, not_not.mp proto,
    Nat.not_lt.mp totalLow, Nat.not_lt.mp totalHigh, Nat.not_lt.mp udpLow, Nat.not_lt.mp udpHigh⟩
  have choice : chosenCallback { w with lastSrcMac := srcMac f } (ipDst f) =
      chosenCallback w (ipDst f) := rfl
  simp only [choice]
  cases chosen : chosenCallback w (ipDst f) with
  | none => exact .unclaimed
  | some target => exact .delivered target shape chosen

theorem processFrame_handled (f : RxFrame) (w : World σ) : Handled f w (processFrame f w) := by
  refine .ite (fun _ => .ignored) fun _ => .ite (fun _ => .ignored) fun long =>
    .ite (fun arp => processArp_handled w (Nat.not_lt.mp long) arp) fun _ =>
    .ite (fun ip => ?_) fun _ => .ignored
  refine .ite (fun _ => .ignored) fun version => .ite (fun _ => .ignored) fun filter =>
    .ite (fun _ => processUdp_handled w (Nat.not_lt.mp long) ip (not_not.mp version)) fun _ =>
    .ite (fun icmp => ?_) fun _ => .ignored
  exact processIcmp_handled (Nat.not_lt.mp long) ip (not_not.mp version)
    ((filter_iff _ _).mp filter) icmp

/-! ## The three frames that are answered or learned from -/

theorem processFrame_arp {f : RxFrame} (w : World σ) (shape : WellFormedArp f) :
    processFrame f w = processArp f w := by
  have low := shape.low
  have header : sizeofEthernetHeader ≤ arpPacketLength := by decide
  rw [processFrame, if_neg (by omega), if_neg (Nat.not_lt.mpr shape.high),
    if_pos shape.ethertype]

theorem processArp_wellFormed {f : RxFrame} (w : World σ) (shape : WellFormedArp f) :
    processArp f w =
      if load16 f.raw 20 = arpOpcodeReply then
        if load32 f.raw 28 = w.cachedIp then { w with cachedMac := loadMac f.raw 22 } else w
      else if load16 f.raw 20 = arpOpcodeRequest then
        if load32 f.raw 38 = w.myIp then arpAnswer f w else w
      else w := by
  rw [processArp, if_neg (Nat.not_lt.mpr shape.low), if_neg (not_not.mpr shape.hwtype),
    if_neg (not_not.mpr shape.proto), if_neg (not_not.mpr shape.hwsize),
    if_neg (not_not.mpr shape.protosize)]
  rfl

theorem processFrame_learns {f : RxFrame} {w : World σ} (reply : ArpReplyFrom w.cachedIp f) :
    processFrame f w = { w with cachedMac := loadMac f.raw 22 } := by
  rw [processFrame_arp w reply.toWellFormedArp, processArp_wellFormed w reply.toWellFormedArp,
    if_pos reply.opcode, if_pos reply.senderIp]

theorem processFrame_answersArp {f : RxFrame} {w : World σ} (request : ArpRequestFor w.myIp f) :
    processFrame f w = arpAnswer f w := by
  rw [processFrame_arp w request.toWellFormedArp, processArp_wellFormed w request.toWellFormedArp,
    if_neg (by rw [request.opcode]; decide), if_pos request.opcode, if_pos request.targetIp]

theorem processFrame_answersEcho {f : RxFrame} {w : World σ} (request : EchoRequestFor w.myIp f) :
    processFrame f w = echoAnswer f w := by
  have low := request.low
  have header : sizeofEthernetHeader ≤ sizeofEthernetHeader + sizeofIcmpFrame :=
    Nat.le_add_right _ _
  rw [processFrame, if_neg (by omega), if_neg (Nat.not_lt.mpr request.high),
    if_neg (by rw [request.ethertype]; decide), if_pos request.ethertype,
    if_neg (not_not.mpr request.version), if_neg ((filter_iff _ _).mpr request.addressed),
    if_neg (by rw [request.proto]; decide), if_pos request.proto, processIcmp,
    if_neg (Nat.not_lt.mpr request.low), if_neg (Nat.not_lt.mpr request.totalLow),
    if_neg (Nat.not_lt.mpr request.totalHigh)]
  exact if_pos request.echo

/-! ## The dispatcher as one case distinction -/

theorem processFrame_udp {f : RxFrame} {w : World σ} (shape : WellFormedUdp f)
    (addressed : AddressedTo w.myIp (ipDst f)) :
    processFrame f w = deliverTo f w (chosenCallback w (ipDst f)) :=
  processFrame_passes shape ((filter_iff _ _).mpr addressed) rfl

/-- Rule for a chain of tests all of whose other branches leave the state alone. -/
theorem ite_eq_self {α : Type*} {a yes no : α} {condition : Prop} [Decidable condition]
    (first : condition → yes = a) (second : ¬ condition → no = a) :
    (if condition then yes else no) = a := by
  split
  next holds => exact first holds
  next fails => exact second fails

theorem processArp_ignores {f : RxFrame} {w : World σ} (high : f.len ≤ ethmacSlotSize)
    (type : ethertype f = ethertypeArp) (reply : ¬ ArpReplyFrom w.cachedIp f)
    (request : ¬ ArpRequestFor w.myIp f) : processArp f w = w := by
  refine ite_eq_self (fun _ => rfl) fun short => ite_eq_self (fun _ => rfl) fun hwtype =>
    ite_eq_self (fun _ => rfl) fun proto => ite_eq_self (fun _ => rfl) fun hwsize =>
    ite_eq_self (fun _ => rfl) fun protosize => ?_
  have shape : WellFormedArp f := ⟨Nat.not_lt.mp short, high, type, not_not.mp hwtype,
    not_not.mp proto, not_not.mp hwsize, not_not.mp protosize⟩
  apply ite_eq_self
  · exact fun opcode => ite_eq_self (fun sender => absurd ⟨shape, opcode, sender⟩ reply)
      fun _ => rfl
  · exact fun _ => ite_eq_self (fun opcode => ite_eq_self
      (fun target => absurd ⟨shape, opcode, target⟩ request) fun _ => rfl) fun _ => rfl

theorem processIcmp_ignores {f : RxFrame} {w : World σ} (high : f.len ≤ ethmacSlotSize)
    (type : ethertype f = ethertypeIp) (version : ipVersion f = ipIpv4)
    (addressed : AddressedTo w.myIp (ipDst f)) (proto : ipProto f = ipProtoIcmp)
    (request : ¬ EchoRequestFor w.myIp f) : processIcmp f w = w := by
  refine ite_eq_self (fun _ => rfl) fun short => ite_eq_self (fun _ => rfl) fun totalLow =>
    ite_eq_self (fun _ => rfl) fun totalHigh => ite_eq_self (fun echo => ?_) fun _ => rfl
  exact absurd ⟨Nat.not_lt.mp short, high, type, version, addressed, proto, Nat.not_lt.mp totalLow,
    Nat.not_lt.mp totalHigh, echo⟩ request

theorem processUdp_ignores {f : RxFrame} {w : World σ} (high : f.len ≤ ethmacSlotSize)
    (type : ethertype f = ethertypeIp) (version : ipVersion f = ipIpv4)
    (malformed : ¬ WellFormedUdp f) : processUdp f w = w := by
  refine ite_eq_self (fun _ => rfl) fun short => ite_eq_self (fun _ => rfl) fun totalLow =>
    ite_eq_self (fun _ => rfl) fun totalHigh => ite_eq_self (fun _ => rfl) fun proto =>
    ite_eq_self (fun _ => rfl) fun udpLow => ite_eq_self (fun _ => rfl) fun udpHigh => ?_
  exact absurd ⟨Nat.not_lt.mp short, high, type, version, not_not.mp proto,
    Nat.not_lt.mp totalLow, Nat.not_lt.mp totalHigh, Nat.not_lt.mp udpLow, Nat.not_lt.mp udpHigh⟩
    malformed

theorem processFrame_ignores {f : RxFrame} {w : World σ} (reply : ¬ ArpReplyFrom w.cachedIp f)
    (request : ¬ ArpRequestFor w.myIp f) (echo : ¬ EchoRequestFor w.myIp f)
    (datagram : ¬ (WellFormedUdp f ∧ AddressedTo w.myIp (ipDst f))) : processFrame f w = w := by
  refine ite_eq_self (fun _ => rfl) fun _ => ite_eq_self (fun _ => rfl) fun long =>
    ite_eq_self (fun arp => processArp_ignores (Nat.not_lt.mp long) arp reply request) fun _ =>
    ite_eq_self (fun ip => ?_) fun _ => rfl
  refine ite_eq_self (fun _ => rfl) fun version => ite_eq_self (fun _ => rfl) fun filter => ?_
  have addressed := (filter_iff _ _).mp filter
  apply ite_eq_self
  · intro udp
    apply processUdp_ignores (Nat.not_lt.mp long) ip (not_not.mp version)
    exact fun shape => datagram ⟨shape, addressed⟩
  · exact fun _ => ite_eq_self (fun icmp => processIcmp_ignores (Nat.not_lt.mp long) ip
      (not_not.mp version) addressed icmp echo) fun _ => rfl

/-- `process_frame` in one line for each thing it can do. -/
theorem processFrame_eq (f : RxFrame) (w : World σ) : processFrame f w =
    if ArpReplyFrom w.cachedIp f then { w with cachedMac := loadMac f.raw 22 }
    else if ArpRequestFor w.myIp f then arpAnswer f w
    else if EchoRequestFor w.myIp f then echoAnswer f w
    else if WellFormedUdp f ∧ AddressedTo w.myIp (ipDst f) then
      deliverTo f w (chosenCallback w (ipDst f))
    else w := by
  split
  next reply => exact processFrame_learns reply
  next reply =>
  split
  next request => exact processFrame_answersArp request
  next request =>
  split
  next echo => exact processFrame_answersEcho echo
  next echo =>
  split
  next datagram => exact processFrame_udp datagram.1 datagram.2
  next datagram => exact processFrame_ignores reply request echo datagram

/-! ## Replies to pings -/

/-- The tests on an ICMP message before its type is looked at. -/
structure WellFormedIcmp (ip : UInt32) (f : RxFrame) : Prop where
  low : sizeofEthernetHeader + sizeofIcmpFrame ≤ f.len
  high : f.len ≤ ethmacSlotSize
  ethertype : ethertype f = ethertypeIp
  version : ipVersion f = ipIpv4
  addressed : AddressedTo ip (ipDst f)
  proto : ipProto f = ipProtoIcmp
  totalLow : sizeofIcmpFrame ≤ ipTotalLength f
  totalHigh : sizeofEthernetHeader + ipTotalLength f ≤ f.len

theorem echoRequestFor_iff (ip : UInt32) (f : RxFrame) :
    EchoRequestFor ip f ↔ WellFormedIcmp ip f ∧ f.raw 34 = icmpEcho :=
  ⟨fun ⟨a, b, c, d, e, g, h, i, j⟩ => ⟨⟨a, b, c, d, e, g, h, i⟩, j⟩,
    fun ⟨⟨a, b, c, d, e, g, h, i⟩, j⟩ => ⟨a, b, c, d, e, g, h, i, j⟩⟩

theorem processFramePing_replies {f : RxFrame} {myIp : UInt32} (shape : WellFormedIcmp myIp f)
    (type : f.raw 34 = icmpEchoReply) (p : Ping) :
    processFramePing f myIp p = processEchoReply f p := by
  have low := shape.low
  have header : sizeofEthernetHeader ≤ sizeofEthernetHeader + sizeofIcmpFrame :=
    Nat.le_add_right _ _
  rw [processFramePing, if_neg (by omega), if_neg (Nat.not_lt.mpr shape.high),
    if_neg (by rw [shape.ethertype]; decide), if_pos shape.ethertype,
    if_neg (not_not.mpr shape.version), if_neg ((filter_iff _ _).mpr shape.addressed),
    if_neg (by rw [shape.proto]; decide), if_pos shape.proto, processIcmpPing,
    if_neg (Nat.not_lt.mpr low), if_neg (Nat.not_lt.mpr shape.totalLow),
    if_neg (Nat.not_lt.mpr shape.totalHigh), if_neg (by rw [type]; decide), if_pos type]

theorem processFramePing_ignores {f : RxFrame} {myIp : UInt32}
    (other : ¬ (WellFormedIcmp myIp f ∧ f.raw 34 = icmpEchoReply)) (p : Ping) :
    processFramePing f myIp p = (p, "") := by
  refine ite_eq_self (fun _ => rfl) fun _ => ite_eq_self (fun _ => rfl) fun long =>
    ite_eq_self (fun _ => rfl) fun _ => ite_eq_self (fun ip => ?_) fun _ => rfl
  refine ite_eq_self (fun _ => rfl) fun version => ite_eq_self (fun _ => rfl) fun filter =>
    ite_eq_self (fun _ => rfl) fun _ => ite_eq_self (fun icmp => ?_) fun _ => rfl
  refine ite_eq_self (fun _ => rfl) fun short => ite_eq_self (fun _ => rfl) fun totalLow =>
    ite_eq_self (fun _ => rfl) fun totalHigh => ite_eq_self (fun _ => rfl) fun _ =>
    ite_eq_self (fun reply => ?_) fun _ => rfl
  exact absurd ⟨⟨Nat.not_lt.mp short, Nat.not_lt.mp long, ip, not_not.mp version,
    (filter_iff _ _).mp filter, icmp, Nat.not_lt.mp totalLow, Nat.not_lt.mp totalHigh⟩, reply⟩ other

/-! ## A poll -/

/-- A poll finds nothing, or handles one frame. -/
theorem udpService_handled (w : World σ) :
    (∃ rest, udpService w = { w with inbox := rest }) ∨
    ∃ f rest, w.inbox = some f :: rest ∧
      Handled f { w with inbox := rest, trace := w.trace ++ [.frame f] } (udpService w) := by
  unfold udpService
  split
  · exact .inl ⟨w.inbox, rfl⟩
  next rest _ => exact .inl ⟨rest, rfl⟩
  next f rest taken => exact .inr ⟨f, rest, taken, processFrame_handled f _⟩

end Remote8008.Guarantees.FrameDispatch
