import Remote8008.Source.UdpReceive

/-!
# What each firmware function can change

One statement per function of firmware/udp.c about the fields it leaves alone and what
it adds to the trace. Everything proved about runs of the firmware goes through these:
transmitting is `Passive`, and a received frame either is passive, or reaches a
callback that stashes nothing, or is accepted as a request.
-/

namespace Remote8008.Guarantees.FirmwareEffects
open Lib.Memory Source.Firmware Source.UdpTransmit Source.EbServe Source.UdpReceive

variable {σ : Type}

/-- The settings no receive or transmit function touches. -/
structure Steady (w w' : World σ) : Prop where
  bus : w'.bus = w.bus
  myIp : w'.myIp = w.myIp
  myMac : w'.myMac = w.myMac
  rxCallback : w'.rxCallback = w.rxCallback
  bxCallback : w'.bxCallback = w.bxCallback

/-- The request slot is left alone too, and only transmissions are added to the trace. -/
structure Passive (w w' : World σ) : Prop extends Steady w w' where
  pending : w'.ebPending = w.ebPending
  stash : w'.ebStash = w.ebStash
  trace : ∃ sent : List (List UInt8), w'.trace = w.trace ++ sent.map .transmit

theorem Steady.refl (w : World σ) : Steady w w := ⟨rfl, rfl, rfl, rfl, rfl⟩

theorem Steady.trans {w w' w'' : World σ} (first : Steady w w') (second : Steady w' w'') :
    Steady w w'' :=
  ⟨second.bus.trans first.bus, second.myIp.trans first.myIp, second.myMac.trans first.myMac,
    second.rxCallback.trans first.rxCallback, second.bxCallback.trans first.bxCallback⟩

theorem Passive.refl (w : World σ) : Passive w w := ⟨.refl w, rfl, rfl, [], by simp⟩

theorem Passive.trans {w w' w'' : World σ} (first : Passive w w') (second : Passive w' w'') :
    Passive w w'' := by
  obtain ⟨sent, trace⟩ := first.trace
  obtain ⟨sent', trace'⟩ := second.trace
  exact ⟨first.toSteady.trans second.toSteady, second.pending.trans first.pending,
    second.stash.trans first.stash, sent ++ sent', by rw [trace', trace]; simp⟩

theorem Passive.ite {w yes no : World σ} {condition : Prop} [Decidable condition]
    (first : Passive w yes) (second : Passive w no) :
    Passive w (if condition then yes else no) := by
  split
  · exact first
  · exact second

/-- What is waiting at the MAC and the addresses of the other end are nobody's settings. -/
theorem link_passive (w : World σ) (inbox : List (Option RxFrame)) (cachedIp : UInt32)
    (cachedMac lastSrcMac : Mac) :
    Passive w { w with
      inbox := inbox
      cachedIp := cachedIp
      cachedMac := cachedMac
      lastSrcMac := lastSrcMac } :=
  ⟨⟨rfl, rfl, rfl, rfl, rfl⟩, rfl, rfl, [], by simp⟩

theorem setTxbuffer_passive (w : World σ) (m : Mem) : Passive w (w.setTxbuffer m) :=
  ⟨⟨rfl, rfl, rfl, rfl, rfl⟩, rfl, rfl, [], by simp [World.setTxbuffer]⟩

theorem sendPacket_trace (w : World σ) (txlen : Nat) : (sendPacket w txlen).trace =
    w.trace ++ [.transmit (load (padded w.txbuffer txlen).1 0 (padded w.txbuffer txlen).2)] :=
  rfl

theorem sendPacket_effect (w : World σ) (txlen : Nat) : ∃ slots slot trace,
    sendPacket w txlen = { w with txSlots := slots, txslot := slot, trace := trace } :=
  ⟨_, _, _, rfl⟩

theorem sendPacket_passive (w : World σ) (txlen : Nat) : Passive w (sendPacket w txlen) :=
  ⟨⟨rfl, rfl, rfl, rfl, rfl⟩, rfl, rfl, [_], sendPacket_trace w txlen⟩

theorem sendArp_passive (w : World σ) (destmac : Mac) (opcode : UInt16) (targetMac : Mac)
    (targetIp : UInt32) : Passive w (sendArp w destmac opcode targetMac targetIp) := by
  unfold sendArp
  exact (setTxbuffer_passive w _).trans (sendPacket_passive _ _)

theorem udpAnnounceArp_passive (w : World σ) : Passive w (udpAnnounceArp w) := by
  unfold udpAnnounceArp
  split
  · exact .refl w
  · exact sendArp_passive ..

theorem udpSend_passive (w : World σ) (srcPort dstPort : UInt16) (length : Nat) :
    Passive w (udpSend w srcPort dstPort length).2 := by
  unfold udpSend
  split
  · exact .refl w
  · split
    · exact .refl w
    · exact (setTxbuffer_passive w _).trans (sendPacket_passive _ _)

theorem processArp_passive (f : RxFrame) (w : World σ) : Passive w (processArp f w) := by
  have cache : Passive w { w with cachedMac := loadMac f.raw 22 } := link_passive w ..
  have stays := Passive.refl w
  have replies := sendArp_passive w (loadMac f.raw 22) arpOpcodeReply (loadMac f.raw 22)
    (load32 f.raw 28)
  exact .ite stays <| .ite stays <| .ite stays <| .ite stays <| .ite stays <|
    .ite (.ite cache stays) <| .ite (.ite replies stays) stays

theorem processIcmp_passive (f : RxFrame) (w : World σ) : Passive w (processIcmp f w) := by
  have stays := Passive.refl w
  have replies : Passive w (sendPacket
      (w.setTxbuffer (icmpFrame f w (ipTotalLength f - sizeofIcmpFrame)))
      (ipTotalLength f - sizeofIcmpFrame + sizeofEthernetHeader + sizeofIcmpFrame)) :=
    (setTxbuffer_passive w _).trans (sendPacket_passive _ _)
  exact .ite stays <| .ite stays <| .ite stays <| .ite replies stays

/-! ## Received frames -/

/-- The request a frame carries. -/
def requestOf (f : RxFrame) : Request :=
  ⟨srcMac f, ipSrc f, (datagram f).srcPort, (datagram f).dstPort, (datagram f).data⟩

/-- The tests of `process_frame` and `process_udp` before any callback is chosen. -/
structure WellFormedUdp (f : RxFrame) : Prop where
  low : sizeofEthernetHeader + sizeofUdpFrame ≤ f.len
  high : f.len ≤ ethmacSlotSize
  ethertype : ethertype f = ethertypeIp
  version : ipVersion f = ipIpv4
  proto : ipProto f = ipProtoUdp
  totalLow : sizeofUdpFrame ≤ ipTotalLength f
  totalHigh : sizeofEthernetHeader + ipTotalLength f ≤ f.len
  udpLow : 8 ≤ udpLength f
  udpHigh : udpLength f ≤ ipTotalLength f - 20

instance (f : RxFrame) : Decidable (WellFormedUdp f) :=
  decidable_of_iff (sizeofEthernetHeader + sizeofUdpFrame ≤ f.len ∧ f.len ≤ ethmacSlotSize ∧
      ethertype f = ethertypeIp ∧ ipVersion f = ipIpv4 ∧ ipProto f = ipProtoUdp ∧
      sizeofUdpFrame ≤ ipTotalLength f ∧ sizeofEthernetHeader + ipTotalLength f ≤ f.len ∧
      8 ≤ udpLength f ∧ udpLength f ≤ ipTotalLength f - 20)
    ⟨fun ⟨a, b, c, d, e, g, h, i, j⟩ => ⟨a, b, c, d, e, g, h, i, j⟩,
      fun ⟨a, b, c, d, e, g, h, i, j⟩ => ⟨a, b, c, d, e, g, h, i, j⟩⟩

/-- `eb_rx_callback` takes the datagram when the slot is free. -/
def Acceptable (data : List UInt8) : Prop :=
  ¬ (data.length ≥ 2 ∧ (data[0]? ≠ some Source.Eb8008.ebMagic0 ∨
    data[1]? ≠ some Source.Eb8008.ebMagic1)) ∧ data.length ≤ ebBufLen

/-- What a frame does to the board. -/
inductive Received (f : RxFrame) (w w' : World σ) : Prop where
  | passive (effect : Passive w w')
  /-- A callback ran and stashed nothing. -/
  | called (target : Callback) (shape : WellFormedUdp f)
      (chosen : chosenCallback w (ipDst f) = some target)
      (reason : target = .dhcp ∨ w.ebPending = true ∨ ¬ Acceptable (datagram f).data)
      (steady : Steady w w') (pending : w'.ebPending = w.ebPending)
      (stash : w'.ebStash = w.ebStash)
      (trace : w'.trace = w.trace ++ [.callback target (datagram f)])
  | accepted (shape : WellFormedUdp f) (chosen : chosenCallback w (ipDst f) = some .eb)
      (free : w.ebPending = false) (acceptable : Acceptable (datagram f).data)
      (steady : Steady w w') (pending : w'.ebPending = true) (stash : w'.ebStash = requestOf f)
      (trace : w'.trace =
        w.trace ++ [.callback .eb (datagram f), .accept (requestOf f)])

theorem Received.ite {f : RxFrame} {w yes no : World σ} {condition : Prop} [Decidable condition]
    (first : condition → Received f w yes) (second : ¬ condition → Received f w no) :
    Received f w (if condition then yes else no) := by
  split
  next holds => exact first holds
  next fails => exact second fails

theorem Received.steady {f : RxFrame} {w w' : World σ} (effect : Received f w w') :
    Steady w w' := by
  cases effect with
  | passive effect => exact effect.toSteady
  | called _ _ _ _ steady => exact steady
  | accepted _ _ _ _ steady => exact steady

theorem frame_steady (w : World σ) (inbox : List (Option RxFrame)) (f : RxFrame) :
    Steady w { w with inbox := inbox, trace := w.trace ++ [.frame f] } :=
  ⟨rfl, rfl, rfl, rfl, rfl⟩

theorem ebRxCallback_busy {w : World σ} (d : Datagram) (busy : w.ebPending = true) :
    ebRxCallback w d = w := by
  rw [ebRxCallback, if_pos busy]

theorem ebRxCallback_rejects (w : World σ) {d : Datagram} (foreign : ¬ Acceptable d.data) :
    ebRxCallback w d = w := by
  unfold ebRxCallback
  split
  · rfl
  · split
    · rfl
    · split
      · rfl
      next _ magic long => exact absurd ⟨magic, Nat.not_lt.mp long⟩ foreign

theorem ebRxCallback_accepts {w : World σ} {d : Datagram} (free : w.ebPending = false)
    (acceptable : Acceptable d.data) : ebRxCallback w d =
      { w with
        ebStash := ⟨w.lastSrcMac, d.srcIp, d.srcPort, d.dstPort, d.data⟩
        ebPending := true
        trace := w.trace ++ [.accept ⟨w.lastSrcMac, d.srcIp, d.srcPort, d.dstPort, d.data⟩] } := by
  rw [ebRxCallback, if_neg (by simp [free]), if_neg acceptable.1,
    if_neg (Nat.not_lt.mpr acceptable.2)]

theorem dhcpRxCallback_effect (w : World σ) (d : Datagram) : ∃ got msgbuf msglen,
    dhcpRxCallback w d = { w with rxGot := got, rxMsgbuf := msgbuf, rxMsglen := msglen } := by
  unfold dhcpRxCallback
  split
  · exact ⟨w.rxGot, w.rxMsgbuf, w.rxMsglen, rfl⟩
  · exact ⟨_, _, _, rfl⟩

theorem invoke_received {f : RxFrame} {w : World σ} {target : Callback} (shape : WellFormedUdp f)
    (chosen : chosenCallback w (ipDst f) = some target) :
    Received f w (invoke { w with lastSrcMac := srcMac f } (datagram f) target) := by
  cases target with
  | dhcp =>
    simp only [invoke]
    obtain ⟨got, msgbuf, msglen, ran⟩ := dhcpRxCallback_effect
      (World.log { w with lastSrcMac := srcMac f } (.callback .dhcp (datagram f))) (datagram f)
    rw [ran]
    exact .called .dhcp shape chosen (.inl rfl) ⟨rfl, rfl, rfl, rfl, rfl⟩ rfl rfl rfl
  | eb =>
    let called := World.log { w with lastSrcMac := srcMac f } (.callback .eb (datagram f))
    change Received f w (ebRxCallback called (datagram f))
    by_cases busy : w.ebPending = true
    · rw [ebRxCallback_busy (w := called) _ busy]
      exact .called .eb shape chosen (.inr (.inl busy)) ⟨rfl, rfl, rfl, rfl, rfl⟩ rfl rfl rfl
    · by_cases acceptable : Acceptable (datagram f).data
      · have free : w.ebPending = false := by simpa using busy
        rw [ebRxCallback_accepts (w := called) free acceptable]
        refine .accepted shape chosen free acceptable ⟨rfl, rfl, rfl, rfl, rfl⟩ rfl rfl ?_
        simp [called, World.log, requestOf, datagram]
      · rw [ebRxCallback_rejects _ acceptable]
        exact .called .eb shape chosen (.inr (.inr acceptable)) ⟨rfl, rfl, rfl, rfl, rfl⟩ rfl
          rfl rfl

theorem processUdp_received {f : RxFrame} (w : World σ) (high : f.len ≤ ethmacSlotSize)
    (type : ethertype f = ethertypeIp) (version : ipVersion f = ipIpv4) :
    Received f w (processUdp f w) := by
  have stays : Received f w w := .passive (.refl w)
  unfold processUdp
  refine .ite (fun _ => stays) fun short => .ite (fun _ => stays) fun totalLow =>
    .ite (fun _ => stays) fun totalHigh => .ite (fun _ => stays) fun proto =>
    .ite (fun _ => stays) fun udpLow => .ite (fun _ => stays) fun udpHigh => ?_
  have shape : WellFormedUdp f := ⟨by omega, high, type, version, by simpa using proto,
    by omega, by omega, by omega, by omega⟩
  have choice : chosenCallback { w with lastSrcMac := srcMac f } (ipDst f) =
      chosenCallback w (ipDst f) := rfl
  simp only [choice]
  cases chosen : chosenCallback w (ipDst f) with
  | none => exact .passive (link_passive w ..)
  | some target => exact invoke_received shape chosen

/-- What becomes of a datagram for the board, by the callback that is chosen for it. -/
def deliverTo (f : RxFrame) (w : World σ) : Option Callback → World σ
  | some target => invoke { w with lastSrcMac := srcMac f } (datagram f) target
  | none => { w with lastSrcMac := srcMac f }

/-- A well-formed datagram passes every test but the one of the address filter. -/
theorem processFrame_passes {f : RxFrame} {w : World σ} {choice : Option Callback}
    (shape : WellFormedUdp f)
    (passes : ¬ (ipDst f ≠ w.myIp ∧ ipDst f ≠ limitedBroadcast ∧ ipDst f ≠ w.myIp ||| 0xff))
    (chosen : chosenCallback w (ipDst f) = choice) : processFrame f w = deliverTo f w choice := by
  have recorded : chosenCallback { w with lastSrcMac := srcMac f } (ipDst f) = choice := chosen
  have low := shape.low
  have small : sizeofEthernetHeader ≤ sizeofEthernetHeader + sizeofUdpFrame := Nat.le_add_right _ _
  rw [processFrame, if_neg (by omega), if_neg (Nat.not_lt.mpr shape.high),
    if_neg (by rw [shape.ethertype]; decide), if_pos shape.ethertype,
    if_neg (not_not.mpr shape.version),
    if_neg passes, if_pos shape.proto, processUdp, if_neg (Nat.not_lt.mpr low),
    if_neg (Nat.not_lt.mpr shape.totalLow), if_neg (Nat.not_lt.mpr shape.totalHigh),
    if_neg (not_not.mpr shape.proto), if_neg (Nat.not_lt.mpr shape.udpLow),
    if_neg (Nat.not_lt.mpr shape.udpHigh)]
  simp only [recorded]
  cases choice with
  | none => rfl
  | some target => rfl

/-- A well-formed datagram that passes the address filter reaches its callback. -/
theorem processFrame_delivers {f : RxFrame} {w : World σ} {target : Callback}
    (shape : WellFormedUdp f) (chosen : chosenCallback w (ipDst f) = some target) :
    processFrame f w = invoke { w with lastSrcMac := srcMac f } (datagram f) target := by
  apply processFrame_passes shape _ chosen
  rintro ⟨notMine, notLimited, notSubnet⟩
  simp [chosenCallback, notMine, notLimited, notSubnet] at chosen

theorem processFrame_received (f : RxFrame) (w : World σ) : Received f w (processFrame f w) := by
  have stays : Received f w w := .passive (.refl w)
  have icmp : Received f w (processIcmp f w) := .passive (processIcmp_passive f w)
  exact .ite (fun _ => stays) fun _ => .ite (fun _ => stays) fun long =>
    .ite (fun _ => .passive (processArp_passive f w)) fun _ =>
    .ite (fun ip => .ite (fun _ => stays) fun version => .ite (fun _ => stays) fun _ =>
      .ite (fun _ => processUdp_received w (Nat.not_lt.mp long) ip (not_not.mp version)) fun _ =>
      .ite (fun _ => icmp) fun _ => stays) fun _ => stays

/-- The callback a frame reaches, with what it is handed. -/
def delivery (w : World σ) (f : RxFrame) : Option (Callback × Datagram) :=
  if WellFormedUdp f then (chosenCallback w (ipDst f)).map (·, datagram f) else none

/-- Observations other than of frames, callbacks and phases. -/
def Obs.quiet : Obs → Prop
  | .phase _ | .frame _ | .callback _ _ => False
  | .accept _ | .handle _ _ _ | .fault _ | .transmit _ => True

theorem invoke_trace (w : World σ) (d : Datagram) (target : Callback) : ∃ extra,
    (invoke w d target).trace = w.trace ++ .callback target d :: extra ∧
      ∀ o ∈ extra, Obs.quiet o := by
  cases target with
  | dhcp =>
    obtain ⟨got, msgbuf, msglen, ran⟩ := dhcpRxCallback_effect (w.log (.callback .dhcp d)) d
    exact ⟨[], by rw [invoke, ran]; rfl, by simp⟩
  | eb =>
    let called := w.log (.callback .eb d)
    have ran : invoke w d .eb = ebRxCallback called d := rfl
    rw [ran]
    by_cases busy : called.ebPending = true
    · exact ⟨[], by rw [ebRxCallback_busy d busy]; rfl, by simp⟩
    · by_cases acceptable : Acceptable d.data
      · rw [ebRxCallback_accepts (by simpa using busy) acceptable]
        exact ⟨[.accept ⟨called.lastSrcMac, d.srcIp, d.srcPort, d.dstPort, d.data⟩],
          by simp [called, World.log], by simp [Obs.quiet]⟩
      · exact ⟨[], by rw [ebRxCallback_rejects called acceptable]; rfl, by simp⟩

/-- A frame adds its delivery to the trace, and then nothing but quiet observations. -/
theorem processFrame_trace (f : RxFrame) (w : World σ) : ∃ extra,
    (processFrame f w).trace =
      w.trace ++ (delivery w f).toList.map (fun call => .callback call.1 call.2) ++ extra ∧
    ∀ o ∈ extra, Obs.quiet o := by
  have undelivered : delivery w f = none → ∃ extra, (processFrame f w).trace =
      w.trace ++ extra ∧ ∀ o ∈ extra, Obs.quiet o := by
    intro none
    cases processFrame_received f w with
    | passive effect =>
      obtain ⟨sent, trace⟩ := effect.trace
      exact ⟨sent.map .transmit, trace, by simp [Obs.quiet]⟩
    | called target shape chosen => simp [delivery, shape, chosen] at none
    | accepted shape chosen => simp [delivery, shape, chosen] at none
  by_cases shape : WellFormedUdp f
  · cases chosen : chosenCallback w (ipDst f) with
    | none =>
      have nothing : delivery w f = none := by simp [delivery, chosen]
      simpa [nothing] using undelivered nothing
    | some target =>
      obtain ⟨extra, trace, quiet⟩ := invoke_trace { w with lastSrcMac := srcMac f } (datagram f)
        target
      refine ⟨extra, ?_, quiet⟩
      rw [processFrame_delivers shape chosen, trace]
      simp [delivery, shape, chosen]
  · have nothing : delivery w f = none := by simp [delivery, shape]
    simpa [nothing] using undelivered nothing

/-- A poll finds nothing, or takes one frame. -/
theorem udpService_cases (w : World σ) :
    Passive w (udpService w) ∨
    ∃ f rest, w.inbox = some f :: rest ∧
      Received f { w with inbox := rest, trace := w.trace ++ [.frame f] } (udpService w) := by
  unfold udpService
  split
  · exact .inl (.refl w)
  · exact .inl (link_passive w ..)
  next f rest taken => exact .inr ⟨f, rest, taken, processFrame_received f _⟩

theorem udpService_steady (w : World σ) : Steady w (udpService w) := by
  rcases udpService_cases w with quiet | ⟨f, rest, -, effect⟩
  · exact quiet.toSteady
  · exact (frame_steady w rest f).trans effect.steady

/-! ## The serve phase -/

/-- How `main` sets the receive path up for serving. -/
structure Serving (ip : UInt32) (w : World σ) : Prop where
  myIp : w.myIp = ip
  rxCallback : w.rxCallback = some .eb
  bxCallback : w.bxCallback = some .eb

/-- The addresses at which the board then hears UDP. -/
def AddressedTo (ip dst : UInt32) : Prop := dst = ip ∨ dst = limitedBroadcast ∨ dst = ip ||| 0xff

theorem Serving.of_steady {ip : UInt32} {w w' : World σ} (serving : Serving ip w)
    (steady : Steady w w') : Serving ip w' :=
  ⟨steady.myIp.trans serving.myIp, steady.rxCallback.trans serving.rxCallback,
    steady.bxCallback.trans serving.bxCallback⟩

theorem Serving.chosen {ip : UInt32} {w : World σ} (serving : Serving ip w) {dst : UInt32}
    (addressed : AddressedTo ip dst) : chosenCallback w dst = some .eb := by
  unfold chosenCallback
  rw [serving.myIp, serving.rxCallback, serving.bxCallback]
  by_cases mine : dst = ip
  · simp [mine]
  · rcases addressed with same | limited | subnet
    · exact absurd same mine
    · simp [limited]
    · simp [subnet]

theorem sendReply_passive (w : World σ) (r : Request) (reply : List UInt8) :
    Passive w (sendReply w r reply) := by
  have peer : Passive w (udpSetPeer w r.srcIp r.srcMac) := link_passive w ..
  exact (peer.trans (setTxbuffer_passive _ _)).trans (udpSend_passive _ _ _ _)

theorem ebServePending_serving {ip : UInt32} (bus : Source.Eb8008.Bus σ) {w : World σ}
    (serving : Serving ip w) : Serving ip (ebServePending bus w) := by
  unfold ebServePending
  split
  · split
    · exact ⟨serving.myIp, serving.rxCallback, serving.bxCallback⟩
    next x ran =>
      dsimp only
      split
      · have handled : Serving ip { w with
            bus := x.bus
            trace := w.trace ++ [.handle w.ebStash.data x.accesses x.reply] } :=
          ⟨serving.myIp, serving.rxCallback, serving.bxCallback⟩
        have sent := handled.of_steady (sendReply_passive _ w.ebStash x.reply).toSteady
        exact ⟨sent.myIp, sent.rxCallback, sent.bxCallback⟩
      · exact ⟨serving.myIp, serving.rxCallback, serving.bxCallback⟩
  · exact serving

theorem ebServePending_trace (bus : Source.Eb8008.Bus σ) (w : World σ) : ∃ extra,
    (ebServePending bus w).trace = w.trace ++ extra ∧ ∀ o ∈ extra, Obs.quiet o := by
  unfold ebServePending
  split
  · split
    next fault _ => exact ⟨[.fault fault], rfl, by simp [Obs.quiet]⟩
    next x ran =>
      dsimp only
      split
      · obtain ⟨sent, trace⟩ := (sendReply_passive { w with
          bus := x.bus
          trace := w.trace ++ [.handle w.ebStash.data x.accesses x.reply] } w.ebStash
          x.reply).trace
        exact ⟨.handle w.ebStash.data x.accesses x.reply :: sent.map .transmit,
          by simp [trace], by simp [Obs.quiet]⟩
      · exact ⟨[.handle w.ebStash.data x.accesses x.reply], rfl, by simp [Obs.quiet]⟩
  · exact ⟨[], by simp, by simp⟩

/-! ## Refresh windows -/

section
variable (inv : World σ → Prop) (service : ∀ w, inv w → inv (udpService w))
  (request : ∀ w ip, inv w → inv (sendArp w Mac.broadcast arpOpcodeRequest Mac.zero ip))
  (cache : ∀ (w : World σ) ip mac, inv w → inv { w with cachedIp := ip, cachedMac := mac })
include service

theorem awaitArpReply_preserves (left : Nat) (w : World σ) (h : inv w) :
    inv (awaitArpReply left w).2 := by
  induction left generalizing w with
  | zero => exact h
  | succ left ih =>
    unfold awaitArpReply
    dsimp only
    split
    · exact service w h
    · exact ih _ (service w h)

include request

theorem arpTries_preserves (ip : UInt32) (left : Nat) (w : World σ) (h : inv w) :
    inv (arpTries ip left w).2 := by
  induction left generalizing w with
  | zero => exact h
  | succ left ih =>
    have waited := awaitArpReply_preserves inv service 100000 _ (request w ip h)
    unfold arpTries
    split
    next w' ended => rwa [ended] at waited
    next w' ended => exact ih w' (by rwa [ended] at waited)

include cache

/-- Whatever survives a poll, an ARP request and a cache update survives a window. -/
theorem udpArpRefresh_preserves (ip : UInt32) (w : World σ) (h : inv w) :
    inv (udpArpRefresh ip w).2 := by
  unfold udpArpRefresh udpArpResolve
  split
  · exact cache w 0 w.cachedMac h
  · exact arpTries_preserves inv service request ip 8 _ (cache w ip Mac.zero h)

end

end Remote8008.Guarantees.FirmwareEffects
