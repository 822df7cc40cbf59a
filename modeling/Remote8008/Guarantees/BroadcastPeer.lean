import Remote8008.Guarantees.FrameDispatch
import Remote8008.Guarantees.MainPhases
import Remote8008.Guarantees.RequestServer

/-!
# Where DHCP requests go

firmware/udp.c:225-286,433-447 and firmware/main.c:112-166,280-293. The peer of
`udp_send` is the one-entry ARP cache. `udp_set_broadcast` sets it before the acquire
phase and nothing sets it again before a lease, but `process_arp` also writes to it,
from inside the polls of `wait_for_reply`.
-/

namespace Remote8008.Guarantees.BroadcastPeer
open Lib.Memory Lib.Machine Lib.BigEndian Source.Firmware Source.UdpTransmit Source.EbServe
open Source.UdpReceive Source.Main Source.Dhcp8008 Source.Eb8008 FirmwareEffects FrameDispatch
open MainPhases TransmitFrame RequestServer

variable {σ : Type}

/-! ## The acquire phase, action by action -/

inductive Action where
  | xid (x : UInt32)
  | setIp (ip : UInt32)
  | setCallback (callback : Option Callback)
  | send (message : List UInt8)
  | clear
  | poll
  | fault (f : Fault)

def act (w : World σ) : Action → World σ
  | .xid x => { w with xid := x }
  | .setIp ip => udpSetIp w ip
  | .setCallback callback => udpSetCallback w callback
  | .send message => (sendDhcp w message).2
  | .clear => { w with rxGot := false }
  | .poll => udpService w
  | .fault f => w.log (.fault f)

/-- The peer `udp_set_broadcast` sets. -/
structure ToBroadcast (w : World σ) : Prop where
  mac : w.cachedMac = Mac.broadcast
  ip : w.cachedIp = limitedBroadcast

theorem ToBroadcast.same {w w' : World σ} (peer : ToBroadcast w) (mac : w'.cachedMac = w.cachedMac)
    (ip : w'.cachedIp = w.cachedIp) : ToBroadcast w' :=
  ⟨mac.trans peer.mac, ip.trans peer.ip⟩

/-- An ARP reply that gives 255.255.255.255 a hardware address of its own. -/
structure Spoofs (f : RxFrame) : Prop extends ArpReplyFrom limitedBroadcast f where
  senderMac : loadMac f.raw 22 ≠ Mac.broadcast

/-- A poll does not take such a reply. -/
def Genuine (w : World σ) : Action → Prop
  | .poll => ∀ f rest, w.inbox = some f :: rest → ¬ Spoofs f
  | _ => True

theorem invoke_peer {w : World σ} (peer : ToBroadcast w) (d : Datagram) (target : Callback) :
    ToBroadcast (invoke w d target) := by
  cases target with
  | dhcp =>
    simp only [invoke]
    obtain ⟨got, msgbuf, msglen, ran⟩ := dhcpRxCallback_effect (w.log (.callback .dhcp d)) d
    rw [ran]
    exact peer.same rfl rfl
  | eb =>
    simp only [invoke]
    unfold ebRxCallback
    repeat (split; exact peer.same rfl rfl)
    exact peer.same rfl rfl

theorem sendPacket_peer {w : World σ} (peer : ToBroadcast w) (txlen : Nat) :
    ToBroadcast (sendPacket w txlen) := peer.same rfl rfl

theorem setTxbuffer_peer {w : World σ} (peer : ToBroadcast w) (m : Mem) :
    ToBroadcast (w.setTxbuffer m) := peer.same rfl rfl

theorem sendDhcp_peer {w : World σ} (peer : ToBroadcast w) (message : List UInt8) :
    ToBroadcast (sendDhcp w message).2 := by
  obtain ⟨slots, slot, trace, sent⟩ := sendDhcp_effect w message
  rw [sent]
  exact peer.same rfl rfl

theorem handled_peer {f : RxFrame} {w w' : World σ} (handled : Handled f w w')
    (genuine : ¬ Spoofs f) (peer : ToBroadcast w) : ToBroadcast w' := by
  cases handled with
  | ignored => exact peer
  | learned reply =>
    -- the sender has 255.255.255.255, so it must give the broadcast hardware address
    have sender : ArpReplyFrom limitedBroadcast f := peer.ip ▸ reply
    have same : loadMac f.raw 22 = Mac.broadcast := by
      by_contra other
      exact genuine ⟨sender, other⟩
    exact ⟨same, peer.ip⟩
  | answeredArp _ =>
    unfold arpAnswer sendArp
    exact sendPacket_peer (setTxbuffer_peer peer _) _
  | answeredEcho _ => exact sendPacket_peer (setTxbuffer_peer peer _) _
  | unclaimed => exact peer.same rfl rfl
  | delivered target _ _ =>
    have noted : ToBroadcast { w with lastSrcMac := srcMac f } := peer.same rfl rfl
    exact invoke_peer noted (datagram f) target

theorem poll_peer {w : World σ} (genuine : Genuine w .poll) (peer : ToBroadcast w) :
    ToBroadcast (udpService w) := by
  rcases udpService_handled w with ⟨rest, ran⟩ | ⟨f, rest, taken, handled⟩
  · rw [ran]
    exact peer.same rfl rfl
  · exact handled_peer handled (genuine f rest taken) (peer.same rfl rfl)

theorem act_peer (w : World σ) (action : Action) (genuine : Genuine w action)
    (peer : ToBroadcast w) : ToBroadcast (act w action) := by
  cases action with
  | send message => exact sendDhcp_peer peer message
  | poll => exact poll_peer genuine peer
  | _ => exact peer.same rfl rfl

/-- The condition on a poll cannot be weakened. -/
theorem genuine_of_poll_peer {w : World σ} (peer : ToBroadcast w)
    (kept : ToBroadcast (udpService w)) : Genuine w .poll := by
  intro f rest taken spoof
  have reply : ArpReplyFrom w.cachedIp f := peer.ip ▸ spoof.toArpReplyFrom
  have learned : (udpService w).cachedMac = loadMac f.raw 22 := by
    simp only [udpService, taken]
    rw [processFrame_learns (w := { w with inbox := rest, trace := w.trace ++ [.frame f] }) reply]
  exact spoof.senderMac (learned.symm.trans kept.mac)

/-! ## Acquisitions are runs of these actions -/

/-- `v` is reached from `w` by actions, and by genuine ones if no frame taken on the way
spoofs the broadcast address. -/
def Reached (w v : World σ) : Prop :=
  ∃ actions seen, v = run act w actions ∧ v.trace = w.trace ++ seen ∧
    ((∀ f, .frame f ∈ seen → ¬ Spoofs f) → Stepwise act Genuine w actions)

theorem Reached.refl (w : World σ) : Reached w w := ⟨[], [], rfl, by simp, fun _ => trivial⟩

theorem Reached.act {w v : World σ} (reached : Reached w v) (action : Action) {extra : List Obs}
    (trace : (act v action).trace = v.trace ++ extra)
    (genuine : (∀ f, .frame f ∈ extra → ¬ Spoofs f) → Genuine v action) :
    Reached w (act v action) := by
  obtain ⟨actions, seen, rfl, before, clean⟩ := reached
  refine ⟨actions ++ [action], seen ++ extra, (run_concat ..).symm, by simp [trace, before], ?_⟩
  intro unspoofed
  have earlier := clean fun f member => unspoofed f (by simp [member])
  exact stepwise_concat earlier (genuine fun f member => unspoofed f (by simp [member]))

theorem udpService_frame {w : World σ} {f : RxFrame} {rest : List (Option RxFrame)}
    (taken : w.inbox = some f :: rest) :
    ∃ extra, (udpService w).trace = w.trace ++ .frame f :: extra := by
  obtain ⟨extra, trace, -⟩ := processFrame_trace f
    { w with inbox := rest, trace := w.trace ++ [.frame f] }
  exact ⟨_, by simp only [udpService, taken, trace, List.append_assoc, List.singleton_append]; rfl⟩

theorem Reached.poll {w v : World σ} (reached : Reached w v) : Reached w (udpService v) := by
  cases next : v.inbox with
  | nil =>
    have nothing : udpService v = v := by simp [udpService, next]
    rwa [nothing]
  | cons head rest =>
    cases head with
    | none =>
      have trace : (udpService v).trace = v.trace ++ [] := by simp [udpService, next]
      refine reached.act .poll trace fun _ f rest' taken => ?_
      simp [next] at taken
    | some f =>
      obtain ⟨extra, trace⟩ := udpService_frame next
      refine reached.act .poll trace fun clean f' rest' taken => ?_
      obtain ⟨rfl, -⟩ : f = f' ∧ rest = rest' := by simpa [next] using taken
      exact clean f (by simp)

theorem reached_acquiring (w : World σ) : AcquireInvariant (Reached w) where
  xid _ x reached := reached.act (.xid x) (List.append_nil _).symm fun _ => trivial
  setIp _ ip reached := reached.act (.setIp ip) (List.append_nil _).symm fun _ => trivial
  setCallback _ callback _ reached :=
    reached.act (.setCallback callback) (List.append_nil _).symm fun _ => trivial
  send v message _ reached := by
    obtain ⟨sent, trace⟩ := (sendDhcp_passive v message).trace
    exact reached.act (.send message) trace fun _ => trivial
  clear _ reached := reached.act .clear (List.append_nil _).symm fun _ => trivial
  poll _ _ reached := reached.poll
  fault _ f reached := reached.act (.fault f) rfl fun _ => trivial

/-! ## Messages sent to the peer -/

/-- `udp_send` takes the message, and the frame that leaves is a broadcast. -/
def SentAsBroadcast (w : World σ) (message : List UInt8) : Prop :=
  ∃ w' frame, sendDhcp w message = (true, w') ∧ w'.trace = w.trace ++ [.transmit frame] ∧
    CarriesUdp frame Mac.broadcast w.myMac w.myIp limitedBroadcast dhcpClientPort dhcpServerPort
      message

theorem sentAsBroadcast {w : World σ} (peer : ToBroadcast w) {message : List UInt8}
    (fits : message.length ≤ maxPayload) : SentAsBroadcast w message := by
  have accepted : (sendDhcp w message).1 = true := by
    have reachable : w.cachedMac ≠ Mac.zero := by
      rw [peer.mac]
      decide
    unfold sendDhcp udpSend
    split
    next unset => exact absurd unset reachable
    · rw [if_neg (Nat.not_lt.mpr fits)]
  have sent : sendDhcp w message = (true, (sendDhcp w message).2) := Prod.ext accepted rfl
  obtain ⟨frame, trace, carries⟩ := sendDhcp_carries sent
  rw [peer.mac, peer.ip] at carries
  exact ⟨_, frame, sent, trace, carries⟩

theorem finishOptions_length (message : List UInt8) :
    (finishOptions message).length = max (message.length + 1) dhcpMinPacketLen := by
  simp only [finishOptions, List.length_append, List.length_replicate, List.length_cons,
    List.length_nil]
  omega

theorem buildHeader_length (chaddr : Mac) (xid : UInt32) :
    (buildHeader chaddr xid).length = 240 := by
  simp only [buildHeader, List.length_append, List.length_replicate, be32_length, be16_length,
    Vector.length_toList, List.length_cons, List.length_nil]

theorem buildCommonOptions_length (chaddr : Mac) (msgType : UInt8) :
    (buildCommonOptions chaddr msgType).length = 24 := by
  simp [buildCommonOptions, putOption, dhcpHostname]

theorem dhcpBuildDiscover_fits (chaddr : Mac) (xid : UInt32) :
    (dhcpBuildDiscover chaddr xid).length ≤ maxPayload := by
  rw [dhcpBuildDiscover, finishOptions_length, List.length_append, buildHeader_length,
    buildCommonOptions_length]
  decide

theorem dhcpBuildRequest_fits (chaddr : Mac) (xid requestedIp serverId : UInt32) :
    (dhcpBuildRequest chaddr xid requestedIp serverId).length ≤ maxPayload := by
  have address : ∀ code v, (putOption code (be32 v)).length = 6 := by simp [putOption]
  rw [dhcpBuildRequest, finishOptions_length, List.length_append, List.length_append,
    List.length_append, buildHeader_length, buildCommonOptions_length, address, address]
  decide

/-- Along every genuine run of the acquire phase the peer is the broadcast address, and
every DISCOVER and REQUEST can be sent and leaves as a broadcast. Every acquisition that
takes no spoofed reply is such a run, and a poll that takes one loses the peer. -/
theorem peer_stays_broadcast (w : World σ) :
    (∀ actions, Stepwise act Genuine (udpSetBroadcast w) actions →
      ToBroadcast (run act (udpSetBroadcast w) actions) ∧ ∀ xid ip server,
        SentAsBroadcast (run act (udpSetBroadcast w) actions)
          (dhcpBuildDiscover chaddrEtherbone xid) ∧
        SentAsBroadcast (run act (udpSetBroadcast w) actions)
          (dhcpBuildRequest chaddrEtherbone xid ip server)) ∧
    (∀ patience, Reached (udpSetBroadcast w) (acquire patience (udpSetBroadcast w)).2) ∧
    ∀ v : World σ, ToBroadcast v → (ToBroadcast (udpService v) ↔ Genuine v .poll) := by
  refine ⟨fun actions genuine => ?_, fun patience => ?_, fun v peer => ?_⟩
  · have peer : ToBroadcast (run act (udpSetBroadcast w) actions) :=
      run_invariant_stepwise ToBroadcast act_peer genuine ⟨rfl, rfl⟩
    refine ⟨peer, fun xid ip server => ?_⟩
    exact ⟨sentAsBroadcast peer (dhcpBuildDiscover_fits _ xid),
      sentAsBroadcast peer (dhcpBuildRequest_fits _ xid ip server)⟩
  · exact acquire_preserves (reached_acquiring _) patience (.refl _)
  · exact ⟨genuine_of_poll_peer peer, fun genuine => poll_peer genuine peer⟩

/-! ## A spoofed reply -/

/-- "255.255.255.255 is at 00:00:00:00:00:00". -/
def spoofedReply : RxFrame :=
  ⟨60, ofBytes ([0xff, 0xff, 0xff, 0xff, 0xff, 0xff, 2, 0, 0, 0, 0, 7, 0x08, 0x06, 0, 1, 0x08, 0,
    6, 4, 0, 2, 0, 0, 0, 0, 0, 0, 0xff, 0xff, 0xff, 0xff] ++ List.replicate 28 0)⟩

/-- The reply comes during the first wait, which an empty datagram then ends. -/
def spoofedBoard : World Unit :=
  udpStart (powerUp () [some spoofedReply, some (frameTo limitedBroadcast 67 68 [])] fun _ _ => 0)
    macEthmac 0

/-- Three runs of `dhcp_run` make fifteen attempts and send one DISCOVER: `udp_send`
refuses all others. -/
theorem peer_lost_to_spoofed_reply :
    ArpReplyFrom limitedBroadcast spoofedReply ∧
    (acquire 3 (udpSetBroadcast spoofedBoard)).1 = none ∧
    (acquire 3 (udpSetBroadcast spoofedBoard)).2.cachedMac = Mac.zero ∧
    (acquire 3 (udpSetBroadcast spoofedBoard)).2.xid = nextXid^[15] spoofedBoard.xid ∧
    (transmitted (acquire 3 (udpSetBroadcast spoofedBoard)).2.trace).length = 1 := by
  decide +kernel

end Remote8008.Guarantees.BroadcastPeer
