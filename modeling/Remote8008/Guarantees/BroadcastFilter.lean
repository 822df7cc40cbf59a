import Remote8008.Guarantees.UdpDelivery
import Remote8008.Guarantees.UnleasedSilence

/-!
# The widened destination filter

firmware/udp.c:679-692,760-784. The filter of `process_frame` was widened so that broadcast
reaches `process_udp`. It stands above the protocol switch, and `process_icmp` does not
look at the destination again: besides UDP broadcast it lets broadcast echo requests
through, which are answered, and broadcast echo replies, which are taken for answers to
the board's own ping. These are all the differences to the filter it replaced.
-/

namespace Remote8008.Guarantees.BroadcastFilter
open Lib.Memory Source.Firmware Source.UdpTransmit Source.UdpReceive Source.UdpPing
open FirmwareEffects FrameDispatch TransmitFrame UnleasedSilence

variable {σ : Type}

/-! ## The replaced filter -/

/-- `process_frame` with an outer filter that accepts only `my_ip`. -/
def processFrameOwnOnly (f : RxFrame) (w : World σ) : World σ :=
  if f.len < sizeofEthernetHeader then w
  else if f.len > ethmacSlotSize then w
  else if ethertype f = ethertypeArp then processArp f w
  else if ethertype f = ethertypeIp then
    if ipVersion f ≠ ipIpv4 then w
    else if ipDst f ≠ w.myIp then w
    else if ipProto f = ipProtoUdp then processUdp f w
    else if ipProto f = ipProtoIcmp then processIcmp f w
    else w
  else w

/-- The same for what concerns pings. -/
def processFramePingOwnOnly (f : RxFrame) (myIp : UInt32) (p : Ping) : Ping × String :=
  if f.len < sizeofEthernetHeader then (p, "")
  else if f.len > ethmacSlotSize then (p, "")
  else if ethertype f = ethertypeArp then (p, "")
  else if ethertype f = ethertypeIp then
    if ipVersion f ≠ ipIpv4 then (p, "")
    else if ipDst f ≠ myIp then (p, "")
    else if ipProto f = ipProtoUdp then (p, "")
    else if ipProto f = ipProtoIcmp then processIcmpPing f p
    else (p, "")
  else (p, "")

/-- An IP frame for another address than the board's own. -/
def ForOther (f : RxFrame) (ip : UInt32) : Prop := ethertype f = ethertypeIp ∧ ipDst f ≠ ip

theorem processFrameOwnOnly_other {f : RxFrame} {w : World σ} (other : ForOther f w.myIp) :
    processFrameOwnOnly f w = w := by
  have type : ethertype f ≠ ethertypeArp := by
    rw [other.1]
    decide
  exact ite_eq_self (fun _ => rfl) fun _ => ite_eq_self (fun _ => rfl) fun _ =>
    ite_eq_self (fun arp => absurd arp type) fun _ => ite_eq_self (fun _ =>
      ite_eq_self (fun _ => rfl) fun _ => ite_eq_self (fun _ => rfl) fun mine =>
      absurd other.2 mine) fun _ => rfl

theorem processFrameOwnOnly_own {f : RxFrame} {w : World σ} (own : ¬ ForOther f w.myIp) :
    processFrameOwnOnly f w = processFrame f w := by
  by_cases ip : ethertype f = ethertypeIp
  · have mine : ipDst f = w.myIp := by
      by_contra other
      exact own ⟨ip, other⟩
    simp only [processFrameOwnOnly, processFrame, mine, ne_eq, not_true_eq_false, false_and]
  · simp only [processFrameOwnOnly, processFrame, if_neg ip]

theorem processFramePingOwnOnly_other {f : RxFrame} {myIp : UInt32} (other : ForOther f myIp)
    (p : Ping) : processFramePingOwnOnly f myIp p = (p, "") :=
  ite_eq_self (fun _ => rfl) fun _ => ite_eq_self (fun _ => rfl) fun _ =>
    ite_eq_self (fun _ => rfl) fun _ => ite_eq_self (fun _ =>
      ite_eq_self (fun _ => rfl) fun _ => ite_eq_self (fun _ => rfl) fun mine =>
      absurd other.2 mine) fun _ => rfl

theorem processFramePingOwnOnly_own {f : RxFrame} {myIp : UInt32} (own : ¬ ForOther f myIp)
    (p : Ping) : processFramePingOwnOnly f myIp p = processFramePing f myIp p := by
  by_cases ip : ethertype f = ethertypeIp
  · have mine : ipDst f = myIp := by
      by_contra other
      exact own ⟨ip, other⟩
    simp only [processFramePingOwnOnly, processFramePing, mine, ne_eq, not_true_eq_false,
      false_and]
  · simp only [processFramePingOwnOnly, processFramePing, if_neg ip]

/-! ## Both filters -/

/-- `wide` is `narrow` up to `udp_last_src_mac` and a call of the broadcast callback for a
datagram to another address. -/
def SameButBroadcast (f : RxFrame) (w narrow wide : World σ) : Prop :=
  ∃ mac, wide = { narrow with lastSrcMac := mac } ∨
    ∃ target, w.bxCallback = some target ∧ ipDst f ≠ w.myIp ∧
      wide = invoke { narrow with lastSrcMac := mac } (datagram f) target

/-- Limited broadcast, or broadcast to the /24 network of `ip`. -/
def IsBroadcast (ip dst : UInt32) : Prop := dst = limitedBroadcast ∨ dst = ip ||| 0xff

/-- An ICMP echo request in a frame to a broadcast address. -/
structure BroadcastPing (f : RxFrame) (ip : UInt32) : Prop where
  ethertype : ethertype f = ethertypeIp
  proto : ipProto f = ipProtoIcmp
  echo : f.raw 34 = icmpEcho
  broadcast : IsBroadcast ip (ipDst f)

/-- An ICMP message that `process_icmp` reacts to although it is a broadcast. -/
structure BroadcastReaction (f : RxFrame) (ip : UInt32) : Prop where
  shape : WellFormedIcmp ip f
  type : (f.raw 34 = icmpEcho ∧ IsBroadcast ip (ipDst f)) ∨
    (f.raw 34 = icmpEchoReply ∧ ipDst f ≠ ip)

theorem sameButBroadcast_refl (f : RxFrame) (w w' : World σ) : SameButBroadcast f w w' w' :=
  ⟨w'.lastSrcMac, .inl rfl⟩

theorem chosenCallback_other {w : World σ} {dst : UInt32} {target : Callback}
    (other : dst ≠ w.myIp) (chosen : chosenCallback w dst = some target) :
    w.bxCallback = some target := by
  rw [chosenCallback, if_pos other] at chosen
  split at chosen
  · exact chosen
  · cases chosen

theorem processFrame_sameButBroadcast {f : RxFrame} {w : World σ}
    (quiet : ¬ BroadcastReaction f w.myIp) :
    SameButBroadcast f w (processFrameOwnOnly f w) (processFrame f w) := by
  by_cases other : ForOther f w.myIp
  · rw [processFrameOwnOnly_other other]
    have handled := processFrame_handled f w
    generalize processFrame f w = w' at handled
    have type : ethertype f ≠ ethertypeArp := by
      rw [other.1]
      decide
    cases handled with
    | ignored => exact sameButBroadcast_refl f w w
    | learned reply => exact absurd reply.ethertype type
    | answeredArp request => exact absurd request.ethertype type
    | answeredEcho request =>
      -- Only a broadcast passes the filter without being for `my_ip`.
      obtain ⟨shape, echo⟩ := (echoRequestFor_iff _ _).mp request
      have broadcast : IsBroadcast w.myIp (ipDst f) := shape.addressed.resolve_left other.2
      exact absurd ⟨shape, .inl ⟨echo, broadcast⟩⟩ quiet
    | unclaimed => exact ⟨srcMac f, .inl rfl⟩
    | delivered target shape chosen =>
      exact ⟨srcMac f, .inr ⟨target, chosenCallback_other other.2 chosen, other.2, rfl⟩⟩
  · rw [processFrameOwnOnly_own other]
    exact sameButBroadcast_refl f w _

theorem processFramePing_same {f : RxFrame} {myIp : UInt32} (quiet : ¬ BroadcastReaction f myIp)
    (p : Ping) : processFramePing f myIp p = processFramePingOwnOnly f myIp p := by
  by_cases other : ForOther f myIp
  · rw [processFramePingOwnOnly_other other]
    apply processFramePing_ignores
    rintro ⟨shape, reply⟩
    exact quiet ⟨shape, .inr ⟨reply, other.2⟩⟩
  · exact (processFramePingOwnOnly_own other p).symm

theorem broadcastPing_unanswered {f : RxFrame} {w : World σ} (quiet : ¬ BroadcastReaction f w.myIp)
    (ping : BroadcastPing f w.myIp) :
    transmitted (processFrame f w).trace = transmitted w.trace := by
  obtain ⟨seen, adds, answered⟩ := processFrame_adds f w
  have unanswerable : ¬ Answerable w.myIp f := by
    rintro (arp | request)
    · exact absurd (arp.ethertype.symm.trans ping.ethertype) (by decide)
    · exact quiet ⟨((echoRequestFor_iff _ _).mp request).1, .inl ⟨ping.echo, ping.broadcast⟩⟩
  rcases answered with ⟨-, nothing⟩ | ⟨answerable, -⟩
  · rw [adds.trace, transmitted_append, nothing, List.append_nil]
  · exact absurd answerable unanswerable

/-! ## The reactions to a broadcast -/

theorem processEchoReply_prints (f : RxFrame) (p : Ping) : (processEchoReply f p).2 ≠ "" := by
  unfold processEchoReply
  split
  · simp
  · split <;> simp

theorem reaction_answered {f : RxFrame} {w : World σ} (shape : WellFormedIcmp w.myIp f)
    (echo : f.raw 34 = icmpEcho) :
    transmitted (processFrame f w).trace ≠ transmitted w.trace := by
  obtain ⟨seen, adds, answered⟩ := processFrame_adds f w
  have answerable : Answerable w.myIp f := .inr ((echoRequestFor_iff _ _).mpr ⟨shape, echo⟩)
  rcases answered with ⟨unanswerable, -⟩ | ⟨-, frame, sent, -⟩
  · exact absurd answerable unanswerable
  · rw [adds.trace, transmitted_append, sent]
    simp

theorem reaction_printed {f : RxFrame} {myIp : UInt32} (shape : WellFormedIcmp myIp f)
    (reply : f.raw 34 = icmpEchoReply) (other : ipDst f ≠ myIp) (p : Ping) :
    processFramePing f myIp p ≠ processFramePingOwnOnly f myIp p := by
  rw [processFramePing_replies shape reply, processFramePingOwnOnly_other ⟨shape.ethertype, other⟩]
  exact fun same => processEchoReply_prints f p (congrArg Prod.snd same)

/-- Where the widened filter changes UDP delivery only. Up to the broadcast callback and the
recorded sender, a frame has the effects it had before, on the state and on what is sent and
printed, and a broadcast ping is not answered, exactly when the frame is no broadcast echo
message that passes the tests of `process_icmp`. -/
theorem broadcast_filter_udp_only_iff (f : RxFrame) (w : World σ) :
    (SameButBroadcast f w (processFrameOwnOnly f w) (processFrame f w) ∧
      (∀ p, processFramePing f w.myIp p = processFramePingOwnOnly f w.myIp p) ∧
      (BroadcastPing f w.myIp →
        transmitted (processFrame f w).trace = transmitted w.trace)) ↔
    ¬ BroadcastReaction f w.myIp := by
  constructor
  · rintro ⟨-, printed, unanswered⟩ ⟨shape, ⟨echo, broadcast⟩ | ⟨reply, other⟩⟩
    · exact reaction_answered shape echo
        (unanswered ⟨shape.ethertype, shape.proto, echo, broadcast⟩)
    · exact reaction_printed shape reply other ⟨0, 0⟩ (printed ⟨0, 0⟩)
  · intro quiet
    exact ⟨processFrame_sameButBroadcast quiet, processFramePing_same quiet,
      broadcastPing_unanswered quiet⟩

/-- An echo request to 255.255.255.255 is answered by a serving board. -/
theorem broadcast_ping_answered :
    BroadcastPing broadcastPing RequestServer.listening.myIp ∧
    ipDst broadcastPing ≠ RequestServer.listening.myIp ∧
    transmitted (processFrameOwnOnly broadcastPing RequestServer.listening).trace = [] ∧
    transmitted RequestServer.listening.trace = [] ∧
    ∃ frame, transmitted (processFrame broadcastPing RequestServer.listening).trace = [frame] ∧
      CarriesIcmp frame RequestServer.listening.myIp := by
  refine ⟨⟨by decide +kernel, by decide +kernel, by decide +kernel, .inl (by decide +kernel)⟩,
    by decide +kernel, by decide +kernel, rfl, _, rfl, ?_⟩
  decide +kernel

end Remote8008.Guarantees.BroadcastFilter
