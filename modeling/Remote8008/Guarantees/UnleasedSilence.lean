import Remote8008.Guarantees.FrameDispatch
import Remote8008.Guarantees.Renewal

/-!
# What a board without a lease says

firmware/udp.c:241-286,317-345,563-619 and firmware/main.c:112-166. While an address is
acquired `my_ip` is 0 for sending and 255.255.255.255 for receiving. `process_arp` and
`process_icmp` compare with these values and send them as if the board had them;
`udp_announce_arp` alone tells them apart from an address.
-/

namespace Remote8008.Guarantees.UnleasedSilence
open Lib.Memory Lib.BigEndian Source.Firmware Source.UdpTransmit Source.EbServe Source.UdpReceive
open Source.Main Source.Eb8008 FirmwareEffects FrameDispatch MainPhases TransmitFrame Renewal
open RequestServer WireImage FrameFields

variable {σ : Type}

/-- The values `dhcp_run` gives `my_ip`. -/
def Placeholder (ip : UInt32) : Prop := ip = 0 ∨ ip = limitedBroadcast

/-! ## Frames that speak for an address -/

structure CarriesIcmp (frame : List UInt8) (srcIp : UInt32) : Prop where
  ethertype : field frame 12 2 = be16 ethertypeIp
  proto : field frame 23 1 = [ipProtoIcmp]
  srcIp : field frame 26 4 = be32 srcIp

instance (frame : List UInt8) (srcIp : UInt32) : Decidable (CarriesIcmp frame srcIp) :=
  decidable_of_iff (field frame 12 2 = be16 ethertypeIp ∧ field frame 23 1 = [ipProtoIcmp] ∧
      field frame 26 4 = be32 srcIp)
    ⟨fun ⟨a, b, c⟩ => ⟨a, b, c⟩, fun ⟨a, b, c⟩ => ⟨a, b, c⟩⟩

/-- An ARP or ICMP frame with sender address `ip`. -/
def SpeaksFor (ip : UInt32) (frame : List UInt8) : Prop :=
  (∃ opcode, CarriesArp frame opcode ip) ∨ CarriesIcmp frame ip

theorem be32_injective : Function.Injective be32 := Function.LeftInverse.injective ofBe32_be32

theorem speaksFor_unique {frame : List UInt8} {ip ip' : UInt32} (first : SpeaksFor ip frame)
    (second : SpeaksFor ip' frame) : ip = ip' := by
  have types : be16 ethertypeArp ≠ be16 ethertypeIp := by decide
  rcases first with ⟨_, arp⟩ | icmp <;> rcases second with ⟨_, arp'⟩ | icmp'
  · exact be32_injective (arp.senderIp.symm.trans arp'.senderIp)
  · exact absurd (arp.ethertype.symm.trans icmp'.ethertype) types
  · exact absurd (arp'.ethertype.symm.trans icmp.ethertype) types
  · exact be32_injective (icmp.srcIp.symm.trans icmp'.srcIp)

theorem carriesUdp_mute {frame payload : List UInt8} {destmac srcmac : Mac} {srcIp dstIp : UInt32}
    {srcPort dstPort : UInt16}
    (udp : CarriesUdp frame destmac srcmac srcIp dstIp srcPort dstPort payload) (ip : UInt32) :
    ¬ SpeaksFor ip frame := by
  rintro (⟨_, arp⟩ | icmp)
  · exact absurd (arp.ethertype.symm.trans udp.ethertype) (by decide)
  · exact absurd (icmp.proto.symm.trans udp.proto) (by decide)

theorem echoAnswer_frame (f : RxFrame) (w : World σ) (total : sizeofIcmpFrame ≤ ipTotalLength f) :
    ∃ frame, (echoAnswer f w).trace = w.trace ++ [.transmit frame] ∧ CarriesIcmp frame w.myIp := by
  refine ⟨_, Transmits.trace (echoAnswer_transmits f w total), ?_⟩
  have whole := holds_ofBytes (echoImage (srcMac f) w.myMac w.myIp (ipSrc f)
    (load f.raw 38 (ipTotalLength f - 24)) ++ List.replicate (100 - (14 + ipTotalLength f)) 0)
  have fields := ipFields_of_holds (holds_append.mp (holds_append.mp whole).1).1
  have long : 34 ≤ (echoImage (srcMac f) w.myMac w.myIp (ipSrc f)
      (load f.raw 38 (ipTotalLength f - 24)) ++
      List.replicate (100 - (14 + ipTotalLength f)) 0).length := by
    rw [List.length_append, echoImage_length]
    omega
  constructor
  · exact field_of_holds whole fields.ethertype (by rw [be16_length]; omega)
  · exact field_of_holds whole fields.proto (by rw [List.length_singleton]; omega)
  · exact field_of_holds whole fields.srcIp (by rw [be32_length]; omega)

/-! ## What one frame makes the board say -/

/-- A frame that a board with `my_ip = ip` answers itself. -/
def Answerable (ip : UInt32) (f : RxFrame) : Prop := ArpRequestFor ip f ∨ EchoRequestFor ip f

/-- What a function adds to the trace within a phase. -/
structure Adds (w w' : World σ) (seen : List Obs) : Prop where
  trace : w'.trace = w.trace ++ seen
  stays : ∀ s, standingAfter s seen = s

theorem invoke_adds (w : World σ) (d : Datagram) (target : Callback) :
    ∃ seen, Adds w (invoke w d target) seen ∧ transmitted seen = [] := by
  cases target with
  | dhcp =>
    obtain ⟨got, msgbuf, msglen, ran⟩ := dhcpRxCallback_effect (w.log (.callback .dhcp d)) d
    refine ⟨[.callback .dhcp d], ⟨?_, fun _ => rfl⟩, rfl⟩
    simp only [invoke]
    rw [ran]
    rfl
  | eb =>
    let called := w.log (.callback .eb d)
    have ran : invoke w d .eb = ebRxCallback called d := rfl
    rw [ran]
    by_cases busy : called.ebPending = true
    · rw [ebRxCallback_busy d busy]
      exact ⟨[.callback .eb d], ⟨rfl, fun _ => rfl⟩, rfl⟩
    · by_cases acceptable : Acceptable d.data
      · rw [ebRxCallback_accepts (by simpa using busy) acceptable]
        refine ⟨[.callback .eb d, .accept ⟨w.lastSrcMac, d.srcIp, d.srcPort, d.dstPort, d.data⟩],
          ⟨?_, fun _ => rfl⟩, rfl⟩
        simp [called, World.log]
      · rw [ebRxCallback_rejects called acceptable]
        exact ⟨[.callback .eb d], ⟨rfl, fun _ => rfl⟩, rfl⟩

/-- A frame makes the board speak, for its `my_ip`, exactly when it is answerable. -/
theorem processFrame_adds (f : RxFrame) (w : World σ) :
    ∃ seen, Adds w (processFrame f w) seen ∧
      ((¬ Answerable w.myIp f ∧ transmitted seen = []) ∨
        Answerable w.myIp f ∧ ∃ frame, transmitted seen = [frame] ∧ SpeaksFor w.myIp frame) := by
  by_cases arp : ArpRequestFor w.myIp f
  · rw [processFrame_answersArp arp]
    obtain ⟨frame, trace, carries⟩ := sendArp_frame w (loadMac f.raw 22) arpOpcodeReply
      (loadMac f.raw 22) (load32 f.raw 28)
    exact ⟨[.transmit frame], ⟨trace, fun _ => rfl⟩, .inr ⟨.inl arp, frame, rfl, .inl ⟨_, carries⟩⟩⟩
  by_cases echo : EchoRequestFor w.myIp f
  · rw [processFrame_answersEcho echo]
    obtain ⟨frame, trace, carries⟩ := echoAnswer_frame f w echo.totalLow
    exact ⟨[.transmit frame], ⟨trace, fun _ => rfl⟩, .inr ⟨.inr echo, frame, rfl, .inr carries⟩⟩
  have unanswerable : ¬ Answerable w.myIp f := not_or.mpr ⟨arp, echo⟩
  have handled := processFrame_handled f w
  generalize processFrame f w = w' at handled
  cases handled with
  | ignored => exact ⟨[], ⟨by simp, fun _ => rfl⟩, .inl ⟨unanswerable, rfl⟩⟩
  | learned _ => exact ⟨[], ⟨by simp, fun _ => rfl⟩, .inl ⟨unanswerable, rfl⟩⟩
  | answeredArp request => exact absurd request arp
  | answeredEcho request => exact absurd request echo
  | unclaimed => exact ⟨[], ⟨by simp, fun _ => rfl⟩, .inl ⟨unanswerable, rfl⟩⟩
  | delivered target _ _ =>
    obtain ⟨seen, adds, nothing⟩ :=
      invoke_adds { w with lastSrcMac := srcMac f } (datagram f) target
    exact ⟨seen, ⟨adds.trace, adds.stays⟩, .inl ⟨unanswerable, nothing⟩⟩

/-- A poll adds nothing, or a frame and what the board says to it. -/
theorem udpService_adds (w : World σ) :
    (udpService w).trace = w.trace ∨ ∃ f seen, Adds w (udpService w) (.frame f :: seen) ∧
      (transmitted seen = [] ∨
        Answerable w.myIp f ∧ ∃ frame, transmitted seen = [frame] ∧ SpeaksFor w.myIp frame) := by
  unfold udpService
  split
  · exact .inl rfl
  · exact .inl rfl
  next f rest taken =>
    obtain ⟨seen, adds, spoken⟩ := processFrame_adds f
      { w with inbox := rest, trace := w.trace ++ [.frame f] }
    exact .inr ⟨f, seen, ⟨by simp [adds.trace], adds.stays⟩, spoken.imp And.right id⟩

/-- `udp_send` adds nothing, or a frame that speaks for nobody. -/
theorem udpSend_adds (w : World σ) (srcPort dstPort : UInt16) (length : Nat) :
    (udpSend w srcPort dstPort length).2.trace = w.trace ∨
    ∃ frame, (udpSend w srcPort dstPort length).2.trace = w.trace ++ [.transmit frame] ∧
      ∀ ip, ¬ SpeaksFor ip frame := by
  by_cases peer : w.cachedMac = Mac.zero
  · rw [udpSend, if_pos peer]
    exact .inl rfl
  by_cases fits : length ≤ maxPayload
  · obtain ⟨frame, trace, carries⟩ := udpSend_frame srcPort dstPort peer fits
    exact .inr ⟨frame, trace, carriesUdp_mute carries⟩
  · rw [udpSend, if_neg peer, if_pos (Nat.not_le.mp fits)]
    exact .inl rfl

/-! ## The phases -/

/-- The frames taken while an address is acquired are not answerable by the filter value,
and no placeholder is leased. -/
structure Discreet (seen : List Obs) : Prop where
  unasked : ∀ d ∈ dispositions .first seen, d.standing.phase = .acquiring →
    ¬ Answerable limitedBroadcast d.frame
  leases : ∀ ip, .phase (.serving ip) ∈ seen → ¬ Placeholder ip

/-- No ARP or ICMP frame has a placeholder for its sender. -/
def Unspoken (seen : List Obs) : Prop :=
  ∀ frame ∈ transmitted seen, ∀ ip, Placeholder ip → ¬ SpeaksFor ip frame

theorem unspoken_append {first second : List Obs} (before : Unspoken first)
    (after : Unspoken second) : Unspoken (first ++ second) := by
  intro frame member
  rw [transmitted_append, List.mem_append] at member
  exact member.elim (before frame) (after frame)

theorem unspoken_of_silent {seen : List Obs} (silent : transmitted seen = []) : Unspoken seen := by
  intro frame member
  simp [silent] at member

theorem mem_of_standingAfter_serving {s : Standing} {seen : List Obs} {ip : UInt32}
    (serving : (standingAfter s seen).phase = .serving ip) :
    s.phase = .serving ip ∨ .phase (.serving ip) ∈ seen := by
  induction seen generalizing s with
  | nil => exact .inl serving
  | cons o rest ih =>
    cases o with
    | phase p =>
      rcases ih serving with entered | later
      · have same : p = .serving ip := by
          cases p with
          | acquiring => cases entered
          | serving ip' => exact entered
        exact .inr (by simp [same])
      · exact .inr (by simp [later])
    | _ => exact (ih serving).imp id fun later => by simp [later]

/-- A run from `start` that is in phase `p`: if it was discreet, it has not spoken. -/
def Modest (start : World σ) (p : Phase) (v : World σ) : Prop :=
  ∃ seen, v.trace = start.trace ++ seen ∧ (standingAfter .first seen).phase = p ∧
    (Discreet seen → Unspoken seen)

/-- The address for which an answer is sent in a phase. -/
def ownAddress : Phase → UInt32
  | .acquiring => limitedBroadcast
  | .serving ip => ip

section
variable {start v v' : World σ} {p : Phase}

theorem Modest.same (modest : Modest start p v) (trace : v'.trace = v.trace) :
    Modest start p v' := by
  obtain ⟨seen, before, phase, quiet⟩ := modest
  exact ⟨seen, trace.trans before, phase, quiet⟩

theorem Modest.extend (modest : Modest start p v) {extra : List Obs} (adds : Adds v v' extra)
    (apart : callbackAfter extra = none)
    (quiet : (∀ ip, p = .serving ip → ¬ Placeholder ip) →
      (∀ f rest, extra = .frame f :: rest → p = .acquiring → ¬ Answerable limitedBroadcast f) →
      Unspoken extra) : Modest start p v' := by
  obtain ⟨seen, before, phase, earlier⟩ := modest
  refine ⟨seen ++ extra, by simp [adds.trace, before], ?_, fun discreet => ?_⟩
  · rw [standingAfter_append, adds.stays]
    exact phase
  have unasked := discreet.unasked
  rw [dispositions_append .first seen apart] at unasked
  have first : Unspoken seen := earlier
    ⟨fun d member => unasked d (by simp [member]), fun ip member => discreet.leases ip (by
      simp [member])⟩
  refine unspoken_append first (quiet ?_ ?_)
  · intro ip serving
    rcases mem_of_standingAfter_serving (phase.trans serving) with never | entered
    · cases never
    · exact discreet.leases ip (by simp [entered])
  · rintro f rest rfl acquiring
    exact unasked ⟨standingAfter .first seen, f, callbackAfter rest⟩ (by simp [dispositions])
      (phase.trans acquiring)

theorem Modest.enter (modest : Modest start p v) (next : Phase) :
    Modest start next (v.log (.phase next)) := by
  obtain ⟨seen, before, -, earlier⟩ := modest
  refine ⟨seen ++ [.phase next], by simp [World.log, before], ?_, fun discreet => ?_⟩
  · rw [standingAfter_append]
    cases next <;> rfl
  · have unasked := discreet.unasked
    rw [dispositions_append .first seen rfl] at unasked
    refine unspoken_append (earlier ⟨fun d member => unasked d (by simp [member]),
      fun ip member => discreet.leases ip (by simp [member])⟩) (unspoken_of_silent rfl)

/-- Frames that speak for nobody may be sent in any phase, and those that speak for the
leased address while serving. -/
theorem Modest.transmit (modest : Modest start p v) {frame : List UInt8}
    (trace : v'.trace = v.trace ++ [.transmit frame])
    (speaker : ∀ ip, SpeaksFor ip frame → p = .serving ip) : Modest start p v' := by
  refine modest.extend ⟨trace, fun _ => rfl⟩ rfl fun leased _ frame' member ip placeholder speaks =>
    ?_
  obtain rfl : frame' = frame := by simpa using member
  exact leased ip (speaker ip speaks) placeholder

theorem Modest.poll (modest : Modest start p v) (own : v.myIp = ownAddress p) :
    Modest start p (udpService v) := by
  rcases udpService_adds v with nothing | ⟨f, seen, adds, spoken⟩
  · exact modest.same nothing
  refine modest.extend adds rfl fun leased unasked => ?_
  have silent : transmitted (.frame f :: seen) = transmitted seen := rfl
  rcases spoken with nothing | ⟨answerable, frame, sent, speaks⟩
  · exact unspoken_of_silent (silent.trans nothing)
  rw [own] at answerable speaks
  cases p with
  | acquiring => exact absurd answerable (unasked f seen rfl rfl)
  | serving ip =>
    intro frame' member ip' placeholder speaks'
    obtain rfl : frame' = frame := by simpa [silent, sent] using member
    have same : ip' = ip := speaksFor_unique speaks' speaks
    exact leased ip rfl (same ▸ placeholder)

theorem Modest.udpSend (modest : Modest start p v) (srcPort dstPort : UInt16) (length : Nat) :
    Modest start p (Source.UdpTransmit.udpSend v srcPort dstPort length).2 := by
  rcases udpSend_adds v srcPort dstPort length with nothing | ⟨frame, trace, mute⟩
  · exact modest.same nothing
  · exact modest.transmit trace fun ip speaks => absurd speaks (mute ip)

theorem Modest.sendReply (modest : Modest start p v) (r : Request) (reply : List UInt8) :
    Modest start p (Source.EbServe.sendReply v r reply) := by
  have peer : Modest start p (udpSetPeer v r.srcIp r.srcMac) := modest.same rfl
  have built : Modest start p ((udpSetPeer v r.srcIp r.srcMac).setTxbuffer
      (store (udpSetPeer v r.srcIp r.srcMac).txbuffer payloadOffset reply)) := peer.same rfl
  exact built.udpSend _ _ _

theorem Modest.sendArp {ip : UInt32} (modest : Modest start (.serving ip) v) (own : v.myIp = ip)
    (destmac : Mac) (opcode : UInt16) (targetMac : Mac) (targetIp : UInt32) :
    Modest start (.serving ip)
      (Source.UdpTransmit.sendArp v destmac opcode targetMac targetIp) := by
  obtain ⟨frame, trace, carries⟩ := sendArp_frame v destmac opcode targetMac targetIp
  refine modest.transmit trace fun ip' speaks => ?_
  rw [← own, speaksFor_unique speaks (.inl ⟨_, carries⟩)]

end

theorem modest_acquiring (start : World σ) : AcquireInvariant (Modest start .acquiring) where
  xid _ _ modest := modest.same rfl
  setIp _ _ modest := modest.same rfl
  setCallback _ _ _ modest := modest.same rfl
  send v message _ modest := by
    have built : Modest start .acquiring (v.setTxbuffer (store v.txbuffer payloadOffset message)) :=
      modest.same rfl
    exact built.udpSend _ _ _
  clear _ modest := modest.same rfl
  poll _ awaiting modest := modest.poll awaiting.myIp
  fault _ _ modest := modest.extend ⟨rfl, fun _ => rfl⟩ rfl fun _ _ => unspoken_of_silent rfl

theorem modest_serving (bus : Bus σ) (start : World σ) (ip : UInt32) :
    ServeInvariant bus ip (Modest start (.serving ip)) where
  poll _ serving modest := modest.poll serving.myIp
  serve v serving modest := by
    unfold ebServePending
    split
    · split
      · exact modest.extend ⟨rfl, fun _ => rfl⟩ rfl fun _ _ => unspoken_of_silent rfl
      next x ran =>
        have handled : Modest start (.serving ip) { v with
            bus := x.bus
            trace := v.trace ++ [.handle v.ebStash.data x.accesses x.reply] } :=
          modest.extend ⟨rfl, fun _ => rfl⟩ rfl fun _ _ => unspoken_of_silent rfl
        dsimp only
        split
        · exact (handled.sendReply v.ebStash x.reply).same rfl
        · exact handled.same rfl
    · exact modest
  announce v serving modest := by
    unfold udpAnnounceArp
    split
    · exact modest
    · exact modest.sendArp serving.myIp _ _ _ _
  request v target serving modest := modest.sendArp serving.myIp _ _ _ _
  cache _ _ _ modest := modest.same rfl

theorem serve_modest (bus : Bus σ) (start : World σ) (lease : Lease) {w : World σ}
    (modest : Modest start .acquiring w) : Modest start .acquiring (serve bus lease w) := by
  have steered : Modest start .acquiring (udpSetBroadcastCallback
      (udpSetCallback (udpSetIp w lease.ip) (some .eb)) (some .eb)) := modest.same rfl
  refine serve_preserves (modest_serving bus start lease.ip) (fun v served => ?_)
    (steered.enter (.serving lease.ip))
  have closed : Modest start (.serving lease.ip) (udpSetCallback v none) := served.same rfl
  exact closed.enter .acquiring

theorem leaseLoop_modest (bus : Bus σ) (patience rounds : Nat) (w : World σ) :
    Modest w .acquiring (leaseLoop bus patience rounds w) := by
  have start : Modest w .acquiring w := ⟨[], by simp, rfl, fun _ => unspoken_of_silent rfl⟩
  obtain ⟨-, kept⟩ := leaseLoop_preserves bus (fun _ : Unit => Modest w .acquiring)
    (fun _ => modest_acquiring w) (fun _ _ kept => kept.same rfl)
    (fun _ lease _ kept => ⟨(), serve_modest bus w lease kept⟩) patience rounds (i := ()) start
  exact kept

/-! ## The loopback test -/

/-- A run from `start` that has not spoken, if nothing it took was answerable by 0. -/
def Tested (start v : World σ) : Prop :=
  ∃ seen, v.trace = start.trace ++ seen ∧
    ((∀ f, .frame f ∈ seen → ¬ Answerable 0 f) → Unspoken seen)

section
variable {start v v' : World σ}

theorem Tested.same (tested : Tested start v) (trace : v'.trace = v.trace) : Tested start v' := by
  obtain ⟨seen, before, quiet⟩ := tested
  exact ⟨seen, trace.trans before, quiet⟩

theorem Tested.extend (tested : Tested start v) {extra : List Obs}
    (trace : v'.trace = v.trace ++ extra)
    (quiet : (∀ f, .frame f ∈ extra → ¬ Answerable 0 f) → Unspoken extra) : Tested start v' := by
  obtain ⟨seen, before, earlier⟩ := tested
  refine ⟨seen ++ extra, by simp [trace, before], fun unasked => ?_⟩
  exact unspoken_append (earlier fun f member => unasked f (by simp [member]))
    (quiet fun f member => unasked f (by simp [member]))

theorem Tested.poll (tested : Tested start v) (unset : v.myIp = 0) :
    Tested start (udpService v) := by
  rcases udpService_adds v with nothing | ⟨f, seen, adds, spoken⟩
  · exact tested.same nothing
  refine tested.extend adds.trace fun unasked => ?_
  rcases spoken with nothing | ⟨answerable, -⟩
  · exact unspoken_of_silent nothing
  · rw [unset] at answerable
    exact absurd answerable (unasked f (by simp))

theorem Tested.udpSend (tested : Tested start v) (srcPort dstPort : UInt16) (length : Nat) :
    Tested start (Source.UdpTransmit.udpSend v srcPort dstPort length).2 := by
  rcases udpSend_adds v srcPort dstPort length with nothing | ⟨frame, trace, mute⟩
  · exact tested.same nothing
  · refine tested.extend trace fun _ frame' member ip _ => ?_
    obtain rfl : frame' = frame := by simpa using member
    exact mute ip

theorem Tested.loopback (tested : Tested start v) : Tested start (Source.Main.loopback v) := by
  let aimed : World σ := udpSetIp { v with xid := nextXid v.xid } 0
  let message := Source.Dhcp8008.dhcpBuildDiscover chaddrEtherbone (nextXid v.xid)
  have built : Tested start (aimed.setTxbuffer (store aimed.txbuffer payloadOffset message)) :=
    tested.same rfl
  have sent : (sendDhcp aimed message).2.myIp = 0 ∧ Tested start (sendDhcp aimed message).2 :=
    ⟨(sendDhcp_passive aimed message).myIp, built.udpSend _ _ _⟩
  have polls : ∀ count, (udpService^[count] (sendDhcp aimed message).2).myIp = 0 ∧
      Tested start (udpService^[count] (sendDhcp aimed message).2) := by
    intro count
    refine Function.Iterate.rec (fun u => u.myIp = 0 ∧ Tested start u) sent ?_ count
    rintro u ⟨unset, kept⟩
    exact ⟨(udpService_steady u).myIp.trans unset, kept.poll unset⟩
  exact (polls 20000).2

end

/-! ## The whole run -/

/-- `main` up to its endless loop. -/
def boot (phy : Bool) (w : World σ) : World σ :=
  let w := udpSetBroadcast (udpStart (w.log (.phase .acquiring)) macEthmac 0)
  if phy then loopback (loopback (loopback w)) else w

theorem boot_tested (phy : Bool) (w : World σ) : Tested w (boot phy w) := by
  have started : Tested w (udpSetBroadcast (udpStart (w.log (.phase .acquiring)) macEthmac 0)) :=
    ⟨[.phase .acquiring], rfl, fun _ => unspoken_of_silent rfl⟩
  unfold boot
  dsimp only
  split
  · exact started.loopback.loopback.loopback
  · exact started

/-- Without a lease the board announces nothing, and a received frame makes it speak
exactly when it is an ARP request for `my_ip` or an echo request its filter takes. So in a
run of main in which no such frame comes without a lease, and neither 0.0.0.0 nor
255.255.255.255 is leased, no ARP or ICMP frame leaves with one of the two as its sender. -/
theorem unleased_board_silent (bus : Bus σ) (phy : Bool) (patience rounds : Nat) (s : σ)
    (inbox : List (Option RxFrame)) (txSlots : Nat → Mem) :
    (∀ w : World σ, Placeholder w.myIp → udpAnnounceArp w = w ∧ ∀ f, ∃ seen,
      (processFrame f w).trace = w.trace ++ seen ∧
      (transmitted seen = [] ↔ ¬ Answerable w.myIp f)) ∧
    ∃ later, (main bus phy patience rounds (powerUp s inbox txSlots)).trace =
        (boot phy (powerUp s inbox txSlots)).trace ++ later ∧
      ((∀ f, .frame f ∈ (boot phy (powerUp s inbox txSlots)).trace → ¬ Answerable 0 f) →
        Discreet later →
        Unspoken (main bus phy patience rounds (powerUp s inbox txSlots)).trace) := by
  refine ⟨fun w unleased => ⟨if_pos unleased, fun f => ?_⟩, ?_⟩
  · obtain ⟨seen, adds, spoken⟩ := processFrame_adds f w
    refine ⟨seen, adds.trace, ?_⟩
    rcases spoken with ⟨unanswerable, nothing⟩ | ⟨answerable, frame, sent, -⟩
    · exact ⟨fun _ => unanswerable, fun _ => nothing⟩
    · simp [sent, answerable]
  · let booted := boot phy (powerUp s inbox txSlots)
    obtain ⟨early, before, quiet⟩ := boot_tested phy (powerUp s inbox txSlots)
    obtain ⟨later, after, -, modest⟩ := leaseLoop_modest bus patience rounds booted
    have start : booted.trace = early := before.trans (List.nil_append early)
    have whole : (main bus phy patience rounds (powerUp s inbox txSlots)).trace =
        booted.trace ++ later := after
    refine ⟨later, whole, fun unasked discreet => ?_⟩
    rw [whole]
    refine unspoken_append ?_ (modest discreet)
    rw [start]
    exact quiet fun f member => unasked f (by rwa [← start] at member)

/-! ## A board that speaks -/

/-- An echo request to 255.255.255.255. -/
def broadcastPing : RxFrame :=
  ⟨60, ofBytes ([0xff, 0xff, 0xff, 0xff, 0xff, 0xff, 2, 0, 0, 0, 0, 7, 0x08, 0x00, 0x45, 0, 0, 28,
    0, 0, 0, 0, 64, 1, 0, 0, 192, 168, 1, 2, 0xff, 0xff, 0xff, 0xff, 8, 0, 0, 0, 0, 1, 0, 1] ++
    List.replicate 18 0)⟩

/-- "Who has 255.255.255.255?" -/
def broadcastQuery : RxFrame :=
  ⟨60, ofBytes ([0xff, 0xff, 0xff, 0xff, 0xff, 0xff, 2, 0, 0, 0, 0, 7, 0x08, 0x06, 0, 1, 0x08, 0,
    6, 4, 0, 1, 2, 0, 0, 0, 0, 7, 192, 168, 1, 2, 0, 0, 0, 0, 0, 0, 0xff, 0xff, 0xff, 0xff] ++
    List.replicate 18 0)⟩

/-- Both come in the first wait; empty datagrams end the waits. -/
def askedRun : World Unit :=
  main idleBus false 1 1 (powerUp () ([some broadcastPing, some broadcastQuery] ++
    List.replicate 5 (some (frameTo limitedBroadcast 67 68 []))) fun _ _ => 0)

theorem unleased_board_speaks :
    (∀ d ∈ dispositions .first askedRun.trace, d.standing.phase = .acquiring) ∧
    (∃ frame ∈ transmitted askedRun.trace, CarriesIcmp frame limitedBroadcast) ∧
    ∃ frame ∈ transmitted askedRun.trace, CarriesArp frame arpOpcodeReply limitedBroadcast := by
  decide +kernel

end Remote8008.Guarantees.UnleasedSilence
