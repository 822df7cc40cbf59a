import Remote8008.Source.Main
import Remote8008.Guarantees.FrameFields

/-!
# Invariants of the two phases of main

firmware/main.c polls the network in three places: in `wait_for_reply`, where the
filter accepts only 255.255.255.255 and the callback is `dhcp_rx_callback`; in the
serve phase, where it is set up for the leased address; and in the loopback test, with
no callback at all. The rules below ask for an invariant to survive the actions of a
phase under the settings in force there, and give it for the phase as a whole.
-/

namespace Remote8008.Guarantees.MainPhases
open Source.Firmware Source.UdpTransmit Source.EbServe Source.UdpReceive Source.Main
open Lib.Machine Lib.Memory Source.Dhcp8008 Source.Eb8008 FirmwareEffects TransmitFrame FrameFields

variable {σ : Type}

theorem sendDhcp_passive (w : World σ) (message : List UInt8) :
    Passive w (sendDhcp w message).2 :=
  (setTxbuffer_passive w _).trans (udpSend_passive _ _ _ _)

/-- Sending touches the transmit slots and the trace. -/
theorem sendDhcp_effect (w : World σ) (message : List UInt8) : ∃ slots slot trace,
    (sendDhcp w message).2 = { w with txSlots := slots, txslot := slot, trace := trace } := by
  unfold sendDhcp udpSend
  split
  · exact ⟨_, w.txslot, w.trace, rfl⟩
  · split
    · exact ⟨_, w.txslot, w.trace, rfl⟩
    · obtain ⟨slots, slot, trace, sent⟩ := sendPacket_effect _ _
      exact ⟨slots, slot, trace, sent⟩

/-- A DHCP message that `udp_send` accepts leaves as it was built. -/
theorem sendDhcp_carries {w w' : World σ} {message : List UInt8}
    (accepted : sendDhcp w message = (true, w')) :
    ∃ frame, w'.trace = w.trace ++ [.transmit frame] ∧
      CarriesUdp frame w.cachedMac w.myMac w.myIp w.cachedIp dhcpClientPort dhcpServerPort
        message := by
  let built := w.setTxbuffer (store w.txbuffer payloadOffset message)
  have payload : load built.txbuffer 42 message.length = message := by
    simpa [built, World.setTxbuffer, World.txbuffer, payloadOffset] using
      load_store w.txbuffer 42 message
  have sent : udpSend built dhcpClientPort dhcpServerPort message.length = (true, w') := accepted
  have able : built.cachedMac ≠ Mac.zero ∧ message.length ≤ maxPayload := by
    unfold udpSend at sent
    split at sent
    · cases sent
    · split at sent
      · cases sent
      next peer fits => exact ⟨peer, Nat.not_lt.mp fits⟩
  obtain ⟨frame, trace, carries⟩ := udpSend_frame dhcpClientPort dhcpServerPort able.1 able.2
  rw [sent] at trace
  rw [payload] at carries
  exact ⟨frame, trace, carries⟩

/-! ## Acquiring -/

/-- The receive path while `wait_for_reply` polls. -/
structure Awaiting (w : World σ) : Prop where
  myIp : w.myIp = limitedBroadcast
  rxCallback : w.rxCallback = some .dhcp

theorem Awaiting.service {w : World σ} (awaiting : Awaiting w) : Awaiting (udpService w) :=
  ⟨(udpService_steady w).myIp.trans awaiting.myIp,
    (udpService_steady w).rxCallback.trans awaiting.rxCallback⟩

theorem Awaiting.chosen {w : World σ} (awaiting : Awaiting w) (dst : UInt32) :
    chosenCallback w dst = if dst = limitedBroadcast then some .dhcp else none := by
  have subnet : limitedBroadcast ||| 0xff = limitedBroadcast := by decide
  unfold chosenCallback
  rw [awaiting.myIp, awaiting.rxCallback, subnet]
  by_cases same : dst = limitedBroadcast <;> simp [same]

/-- Between two waits only the callback is known. -/
def Listening (inv : World σ → Prop) (w : World σ) : Prop := inv w ∧ w.rxCallback = some .dhcp

/-- What an acquisition does, apart from computing. -/
structure AcquireInvariant (inv : World σ → Prop) : Prop where
  xid : ∀ w x, inv w → inv { w with xid := x }
  setIp : ∀ w ip, inv w → inv (udpSetIp w ip)
  setCallback : ∀ w callback, callback ≠ some .eb → inv w → inv (udpSetCallback w callback)
  send : ∀ w message, w.myIp = 0 → inv w → inv (sendDhcp w message).2
  clear : ∀ w, inv w → inv { w with rxGot := false }
  poll : ∀ w, Awaiting w → inv w → inv (udpService w)
  fault : ∀ w fault, inv w → inv (w.log (.fault fault))

section
variable {inv : World σ → Prop} (rule : AcquireInvariant inv)
include rule

theorem awaitReply_preserves (left : Nat) (w : World σ) (awaiting : Awaiting w) (h : inv w) :
    inv (awaitReply left w).2 ∧ Awaiting (awaitReply left w).2 := by
  induction left generalizing w with
  | zero => exact ⟨h, awaiting⟩
  | succ left ih =>
    unfold awaitReply
    dsimp only
    split
    · exact ⟨rule.poll w awaiting h, awaiting.service⟩
    · exact ih _ awaiting.service (rule.poll w awaiting h)

theorem exchange_preserves (message : List UInt8) {w : World σ} (h : Listening inv w) :
    Listening inv (exchange w message).2 := by
  have sent := rule.send (udpSetIp w 0) message rfl (rule.setIp w 0 h.1)
  have callback : (sendDhcp (udpSetIp w 0) message).2.rxCallback = some .dhcp :=
    (sendDhcp_passive (udpSetIp w 0) message).rxCallback.trans h.2
  unfold exchange
  split
  next w' ended =>
    rw [ended] at sent callback
    exact ⟨sent, callback⟩
  next w' ended =>
    rw [ended] at sent callback
    have waited := awaitReply_preserves rule dhcpReplyTimeoutLoops
      { udpSetIp w' limitedBroadcast with rxGot := false } ⟨rfl, callback⟩
      (rule.clear _ (rule.setIp w' limitedBroadcast sent))
    exact ⟨waited.1, waited.2.rxCallback⟩

theorem parsed_preserves (result : Except Fault (Option Reply)) {w : World σ}
    (h : Listening inv w) : Listening inv (parsed w result).2 := by
  unfold parsed
  split
  · exact h
  next fault => exact ⟨rule.fault w fault h.1, h.2⟩

theorem requestLease_preserves (xid : UInt32) (offer : Reply) {w : World σ}
    (h : Listening inv w) : Listening inv (requestLease w xid offer).2 := by
  have exchanged := exchange_preserves rule
    (dhcpBuildRequest chaddrEtherbone xid offer.ip offer.server) h
  unfold requestLease
  split
  next w' ended => rwa [ended] at exchanged
  next w' ended =>
    rw [ended] at exchanged
    have read := parsed_preserves rule (dhcpParseAck (stashedReply w') xid) exchanged
    split
    next w'' failed => rwa [failed] at read
    next ack w'' found =>
      rw [found] at read
      split <;> exact read

theorem dhcpAttempt_preserves {w : World σ} (h : Listening inv w) :
    Listening inv (dhcpAttempt w).2 := by
  have fresh : Listening inv { w with xid := nextXid w.xid } := ⟨rule.xid w _ h.1, h.2⟩
  have exchanged := exchange_preserves rule (dhcpBuildDiscover chaddrEtherbone (nextXid w.xid))
    fresh
  unfold dhcpAttempt
  dsimp only
  split
  next w' ended => rwa [ended] at exchanged
  next w' ended =>
    rw [ended] at exchanged
    have read := parsed_preserves rule (dhcpParseOffer (stashedReply w') (nextXid w.xid)) exchanged
    split
    next w'' failed => rwa [failed] at read
    next offer w'' found =>
      rw [found] at read
      exact requestLease_preserves rule _ offer read

theorem dhcpTries_preserves (left : Nat) {w : World σ} (h : Listening inv w) :
    inv (dhcpTries left w).2 := by
  induction left generalizing w with
  | zero => exact rule.setCallback w none (by simp) h.1
  | succ left ih =>
    have attempted := dhcpAttempt_preserves rule h
    unfold dhcpTries
    split
    next lease w' ended =>
      rw [ended] at attempted
      exact rule.setCallback w' none (by simp) attempted.1
    next w' ended =>
      rw [ended] at attempted
      exact ih attempted

/-- Whatever survives each action of an acquisition survives the acquisition. -/
theorem acquire_preserves (patience : Nat) {w : World σ} (h : inv w) :
    inv (acquire patience w).2 := by
  induction patience generalizing w with
  | zero => exact h
  | succ patience ih =>
    have ran : inv (dhcpRun w).2 := dhcpTries_preserves rule dhcpMaxTries
      ⟨rule.setCallback w (some .dhcp) (by simp) h, rfl⟩
    unfold acquire
    split
    next lease w' ended => rwa [ended] at ran
    next w' ended =>
      rw [ended] at ran
      exact ih ran

end

/-! ## Serving -/

/-- What the serve phase does under its settings. -/
structure ServeInvariant (bus : Bus σ) (ip : UInt32) (inv : World σ → Prop) : Prop where
  poll : ∀ w, Serving ip w → inv w → inv (udpService w)
  serve : ∀ w, Serving ip w → inv w → inv (ebServePending bus w)
  announce : ∀ w, Serving ip w → inv w → inv (udpAnnounceArp w)
  request : ∀ w target, Serving ip w → inv w →
    inv (sendArp w Mac.broadcast arpOpcodeRequest Mac.zero target)
  cache : ∀ w target mac, inv w → inv { w with cachedIp := target, cachedMac := mac }

section
variable {bus : Bus σ} {ip : UInt32} {inv : World σ → Prop} (rule : ServeInvariant bus ip inv)
include rule

theorem serveLoop_preserves (count : Nat) {w : World σ} (h : Serving ip w ∧ inv w) :
    Serving ip (serveLoop bus count w) ∧ inv (serveLoop bus count w) := by
  refine Function.Iterate.rec (fun v => Serving ip v ∧ inv v) h ?_ count
  rintro v ⟨serving, kept⟩
  have polled : Serving ip (udpService v) := serving.of_steady (udpService_steady v)
  exact ⟨ebServePending_serving bus polled, rule.serve _ polled (rule.poll v serving kept)⟩

theorem refresh_preserves (target : UInt32) {w : World σ} (h : Serving ip w ∧ inv w) :
    Serving ip (udpArpRefresh target w).2 ∧ inv (udpArpRefresh target w).2 := by
  refine udpArpRefresh_preserves (fun v => Serving ip v ∧ inv v) ?_ ?_ ?_ target w h
  · rintro v ⟨serving, kept⟩
    exact ⟨serving.of_steady (udpService_steady v), rule.poll v serving kept⟩
  · rintro v asked ⟨serving, kept⟩
    exact ⟨serving.of_steady (sendArp_passive ..).toSteady, rule.request v asked serving kept⟩
  · rintro v asked mac ⟨serving, kept⟩
    exact ⟨⟨serving.myIp, serving.rxCallback, serving.bxCallback⟩, rule.cache v asked mac kept⟩

theorem announce_preserves {w : World σ} (h : Serving ip w ∧ inv w) :
    Serving ip (udpAnnounceArp w) ∧ inv (udpAnnounceArp w) :=
  ⟨h.1.of_steady (udpAnnounceArp_passive w).toSteady, rule.announce w h.1 h.2⟩

theorem serveTick_preserves (s : Nat) {w : World σ} (h : Serving ip w ∧ inv w) :
    Serving ip (serveTick bus ip s w) ∧ inv (serveTick bus ip s w) := by
  have announced : Serving ip (if s % 30 = 0 then udpAnnounceArp w else w) ∧
      inv (if s % 30 = 0 then udpAnnounceArp w else w) := by
    split
    · exact announce_preserves rule h
    · exact h
  have refreshed : ∀ v, Serving ip v ∧ inv v →
      Serving ip (if s % 10 = 1 then (udpArpRefresh (gateway ip) v).2 else v) ∧
      inv (if s % 10 = 1 then (udpArpRefresh (gateway ip) v).2 else v) := by
    intro v kept
    split
    · exact refresh_preserves rule (gateway ip) kept
    · exact kept
  unfold serveTick
  dsimp only
  exact serveLoop_preserves rule ebServeLoopsPerSec (refreshed _ announced)

/-- Whatever survives each action of the serve phase survives the phase. -/
theorem serveTicks_preserves (ticks : Nat) {w : World σ} (h : Serving ip w ∧ inv w) :
    Serving ip (serveTicks bus ip ticks w) ∧ inv (serveTicks bus ip ticks w) :=
  run_invariant (fun v => Serving ip v ∧ inv v) (fun _ => True)
    (fun _ s _ kept => serveTick_preserves rule s kept) _ (fun _ _ => trivial) w h

end

/-- From the opening of the serve phase to its close. -/
theorem serve_preserves {bus : Bus σ} {lease : Lease} {inv after : World σ → Prop}
    (rule : ServeInvariant bus lease.ip inv) (closed : ∀ v, inv v → after (closeServing v))
    {w : World σ} (opened : inv (openServing lease.ip w)) : after (serve bus lease w) := by
  have announced := announce_preserves rule ⟨⟨rfl, rfl, rfl⟩, opened⟩
  have served := serveTicks_preserves rule (lease.secs.toNat / 2) announced
  exact closed _ served.2

/-! ## Acquiring and serving in turn -/

/-- The index is what a lease may change in the invariant. -/
theorem leaseLoop_preserves {ι : Type} (bus : Bus σ) (inv : ι → World σ → Prop)
    (acquiring : ∀ i, AcquireInvariant (inv i))
    (broadcast : ∀ i w, inv i w → inv i (udpSetBroadcast w))
    (served : ∀ i lease w, inv i w → ∃ j, inv j (serve bus lease w)) (patience rounds : Nat)
    {i : ι} {w : World σ} (h : inv i w) : ∃ j, inv j (leaseLoop bus patience rounds w) := by
  induction rounds generalizing w i with
  | zero => exact ⟨i, h⟩
  | succ rounds ih =>
    have acquired := acquire_preserves (acquiring i) patience (broadcast i w h)
    unfold leaseLoop
    split
    next w' ended =>
      rw [ended] at acquired
      exact ⟨i, acquired⟩
    next lease w' ended =>
      rw [ended] at acquired
      obtain ⟨j, kept⟩ := served i lease w' acquired
      exact ih kept

end Remote8008.Guarantees.MainPhases
