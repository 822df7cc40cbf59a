import Remote8008.Guarantees.MainPhases
import Remote8008.Guarantees.WritesAccepted

/-!
# Where a datagram goes while the lease is renewed

firmware/main.c:98-166,280-329. Serving and acquiring share one receive path whose
address and callbacks are reassigned at each change of phase. The trace says for every
frame taken from the MAC in which phase it came, which address was leased last, and
which callback it reached.
-/

namespace Remote8008.Guarantees.Renewal
open Source.Firmware Source.UdpTransmit Source.EbServe Source.UdpReceive Source.Main
open Lib.BigEndian Source.Eb8008 FirmwareEffects MainPhases RequestServer WritesAccepted

variable {σ : Type}

/-! ## Reading the trace -/

/-- The phase main is in, and the address it leased last. -/
structure Standing where
  phase : Phase
  lease : Option UInt32

def Standing.first : Standing := ⟨.acquiring, none⟩

def Standing.enter (s : Standing) : Phase → Standing
  | .acquiring => ⟨.acquiring, s.lease⟩
  | .serving ip => ⟨.serving ip, some ip⟩

/-- A frame, when it came, and the callback it reached. -/
structure Disposition where
  standing : Standing
  frame : RxFrame
  reached : Option (Callback × Datagram)

def callbackAfter : List Obs → Option (Callback × Datagram)
  | .callback target d :: _ => some (target, d)
  | _ => none

def dispositions (s : Standing) : List Obs → List Disposition
  | [] => []
  | .phase p :: rest => dispositions (s.enter p) rest
  | .frame f :: rest => ⟨s, f, callbackAfter rest⟩ :: dispositions s rest
  | _ :: rest => dispositions s rest

def standingAfter (s : Standing) : List Obs → Standing
  | [] => s
  | .phase p :: rest => standingAfter (s.enter p) rest
  | _ :: rest => standingAfter s rest

theorem standingAfter_append (s : Standing) (before after : List Obs) :
    standingAfter s (before ++ after) = standingAfter (standingAfter s before) after := by
  induction before generalizing s with
  | nil => rfl
  | cons o rest ih => cases o <;> exact ih _

theorem callbackAfter_append {before after : List Obs} (apart : callbackAfter after = none) :
    callbackAfter (before ++ after) = callbackAfter before := by
  cases before with
  | nil => exact apart
  | cons o rest => cases o <;> rfl

/-- What is added to the trace leaves the frames before it where they were. -/
theorem dispositions_append (s : Standing) (before : List Obs) {after : List Obs}
    (apart : callbackAfter after = none) : dispositions s (before ++ after) =
      dispositions s before ++ dispositions (standingAfter s before) after := by
  induction before generalizing s with
  | nil => rfl
  | cons o rest ih =>
    cases o with
    | frame f =>
      simp only [List.cons_append, dispositions, standingAfter, callbackAfter_append apart, ih]
    | _ => exact ih _

theorem quiet_observations (s : Standing) {extra : List Obs} (quiet : ∀ o ∈ extra, Obs.quiet o) :
    standingAfter s extra = s ∧ dispositions s extra = [] ∧ callbackAfter extra = none := by
  induction extra with
  | nil => exact ⟨rfl, rfl, rfl⟩
  | cons o rest ih =>
    obtain ⟨same, nothing, -⟩ := ih fun o member => quiet o (by simp [member])
    have here := quiet o (by simp)
    cases o with
    | phase p => exact here.elim
    | frame f => exact here.elim
    | callback target d => exact here.elim
    | _ => exact ⟨same, nothing, rfl⟩

/-! ## Where frames go -/

/-- Acquiring, what is broadcast to 255.255.255.255 is handed to `dhcp_rx_callback`, and
nothing else to anybody. -/
def heardAcquiring (f : RxFrame) : Option (Callback × Datagram) :=
  if ipDst f = limitedBroadcast then some (.dhcp, datagram f) else none

/-- The rule of each phase: serving, what is addressed to the board reaches
`eb_rx_callback`; acquiring, it is the rule of `heardAcquiring`, but for frames that come
before any callback is set, and so before the first lease. -/
def Sorted (d : Disposition) : Prop :=
  WellFormedUdp d.frame → match d.standing.phase with
    | .serving ip => d.standing.lease = some ip ∧
        (AddressedTo ip (ipDst d.frame) → d.reached = some (.eb, datagram d.frame))
    | .acquiring => d.reached = heardAcquiring d.frame ∨
        d.standing.lease = none ∧ d.reached = none

structure Settled (s : Standing) (w : World σ) : Prop where
  standing : standingAfter .first w.trace = s
  sorted : ∀ d ∈ dispositions .first w.trace, Sorted d

theorem Settled.quiet {s : Standing} {w w' : World σ} (h : Settled s w) {extra : List Obs}
    (trace : w'.trace = w.trace ++ extra) (quiet : ∀ o ∈ extra, Obs.quiet o) : Settled s w' := by
  obtain ⟨same, nothing, apart⟩ := quiet_observations s quiet
  constructor
  · rw [trace, standingAfter_append, h.standing, same]
  · rw [trace, dispositions_append .first w.trace apart, h.standing, nothing, List.append_nil]
    exact h.sorted

theorem Settled.same {s : Standing} {w w' : World σ} (h : Settled s w)
    (trace : w'.trace = w.trace) : Settled s w' :=
  ⟨trace ▸ h.standing, trace ▸ h.sorted⟩

theorem Settled.passive {s : Standing} {w w' : World σ} (h : Settled s w)
    (effect : Passive w w') : Settled s w' := by
  obtain ⟨sent, trace⟩ := effect.trace
  exact h.quiet trace (by simp [Obs.quiet])

theorem Settled.enter {s : Standing} {w : World σ} (h : Settled s w) (p : Phase) :
    Settled (s.enter p) (w.log (.phase p)) := by
  constructor
  · rw [World.log, standingAfter_append, h.standing]
    rfl
  · rw [World.log, dispositions_append .first w.trace rfl, h.standing]
    simpa [dispositions] using h.sorted

/-- A poll is judged by where the settings send the frame it may find. -/
theorem Settled.poll {s : Standing} {w : World σ} (h : Settled s w)
    (fresh : ∀ f, Sorted ⟨s, f, delivery w f⟩) : Settled s (udpService w) := by
  unfold udpService
  split
  · exact h
  · exact h.same rfl
  next f rest taken =>
    obtain ⟨extra, trace, quiet⟩ := processFrame_trace f
      { w with inbox := rest, trace := w.trace ++ [.frame f] }
    have same : delivery { w with inbox := rest, trace := w.trace ++ [.frame f] } f =
      delivery w f := rfl
    rw [same, List.append_assoc, List.append_assoc] at trace
    obtain ⟨stays, nothing, apart⟩ := quiet_observations s quiet
    constructor
    · rw [trace, standingAfter_append, h.standing]
      cases reached : delivery w f with
      | none => exact stays
      | some call => exact stays
    · rw [trace, dispositions_append .first w.trace rfl, h.standing]
      intro d member
      rcases List.mem_append.mp member with old | new
      · exact h.sorted d old
      · have only : d = ⟨s, f, delivery w f⟩ := by
          cases reached : delivery w f with
          | none => simpa [dispositions, reached, nothing, apart] using new
          | some call => simpa [dispositions, reached, nothing, callbackAfter] using new
        rw [only]
        exact fresh f

/-! ## The phases of main -/

theorem sorted_awaiting {w : World σ} (awaiting : Awaiting w) (lease : Option UInt32)
    (f : RxFrame) : Sorted ⟨⟨.acquiring, lease⟩, f, delivery w f⟩ := by
  intro shape
  refine .inl ?_
  simp only [delivery, if_pos shape, awaiting.chosen, heardAcquiring]
  split <;> rfl

theorem sorted_serving {ip : UInt32} {w : World σ} (serving : Serving ip w) (f : RxFrame) :
    Sorted ⟨⟨.serving ip, some ip⟩, f, delivery w f⟩ := by
  intro shape
  refine ⟨rfl, fun addressed => ?_⟩
  simp only [delivery, if_pos shape, serving.chosen addressed, Option.map_some]

theorem settled_acquiring (lease : Option UInt32) :
    AcquireInvariant (σ := σ) (Settled ⟨.acquiring, lease⟩) where
  xid _ _ h := h.same rfl
  setIp _ _ h := h.same rfl
  setCallback _ _ _ h := h.same rfl
  send w message _ h := h.passive (sendDhcp_passive w message)
  clear _ h := h.same rfl
  poll _ awaiting h := h.poll (sorted_awaiting awaiting lease)
  fault w fault h := by
    have logged : (w.log (.fault fault)).trace = w.trace ++ [.fault fault] := rfl
    exact h.quiet logged (by simp [Obs.quiet])

theorem settled_serving (bus : Bus σ) (ip : UInt32) :
    ServeInvariant bus ip (Settled ⟨.serving ip, some ip⟩) where
  poll _ serving h := h.poll (sorted_serving serving)
  serve w _ h := by
    obtain ⟨extra, trace, quiet⟩ := ebServePending_trace bus w
    exact h.quiet trace quiet
  announce w _ h := h.passive (udpAnnounceArp_passive w)
  request w _ _ h := h.passive (sendArp_passive ..)
  cache _ _ _ h := h.same rfl

theorem serve_settled (bus : Bus σ) (lease : Lease) {old : Option UInt32} {w : World σ}
    (h : Settled ⟨.acquiring, old⟩ w) :
    Settled ⟨.acquiring, some lease.ip⟩ (serve bus lease w) := by
  have steered : Settled ⟨.acquiring, old⟩ (udpSetBroadcastCallback
      (udpSetCallback (udpSetIp w lease.ip) (some .eb)) (some .eb)) := h.same rfl
  refine serve_preserves (settled_serving bus lease.ip) (fun v served => ?_)
    (steered.enter (.serving lease.ip))
  have closed : Settled ⟨.serving lease.ip, some lease.ip⟩ (udpSetCallback v none) :=
    served.same rfl
  exact closed.enter .acquiring

theorem leaseLoop_settled (bus : Bus σ) (patience rounds : Nat) {w : World σ}
    (h : Settled .first w) :
    ∃ lease, Settled ⟨.acquiring, lease⟩ (leaseLoop bus patience rounds w) :=
  leaseLoop_preserves bus _ settled_acquiring (fun _ _ kept => kept.same rfl)
    (fun _ lease _ kept => ⟨some lease.ip, serve_settled bus lease kept⟩) patience rounds h

/-- No callback is set yet. -/
structure Silent (w : World σ) : Prop where
  rxCallback : w.rxCallback = none
  bxCallback : w.bxCallback = none
  settled : Settled .first w

theorem Silent.poll {w : World σ} (silent : Silent w) : Silent (udpService w) := by
  have steady := udpService_steady w
  refine ⟨steady.rxCallback.trans silent.rxCallback, steady.bxCallback.trans silent.bxCallback,
    silent.settled.poll fun f _ => .inr ⟨rfl, ?_⟩⟩
  simp only [delivery, chosenCallback, silent.rxCallback, silent.bxCallback]
  split <;> simp

theorem Silent.passive {w w' : World σ} (silent : Silent w) (effect : Passive w w') : Silent w' :=
  ⟨effect.rxCallback.trans silent.rxCallback, effect.bxCallback.trans silent.bxCallback,
    silent.settled.passive effect⟩

theorem Silent.loopback {w : World σ} (silent : Silent w) : Silent (loopback w) := by
  have aimed : Silent (udpSetIp { w with xid := nextXid w.xid } 0) :=
    ⟨silent.rxCallback, silent.bxCallback, silent.settled.same rfl⟩
  have sent := aimed.passive (sendDhcp_passive _
    (Source.Dhcp8008.dhcpBuildDiscover chaddrEtherbone (nextXid w.xid)))
  have polls : ∀ count, Silent (udpService^[count] (sendDhcp (udpSetIp { w with
      xid := nextXid w.xid } 0) (Source.Dhcp8008.dhcpBuildDiscover chaddrEtherbone
      (nextXid w.xid))).2) :=
    fun count => Function.Iterate.rec Silent sent (fun _ => Silent.poll) count
  exact polls 20000

theorem main_settled (bus : Bus σ) (phy : Bool) (patience rounds : Nat) {w : World σ}
    (blank : w.trace = []) :
    ∃ lease, Settled ⟨.acquiring, lease⟩ (main bus phy patience rounds w) := by
  let started := udpSetBroadcast (udpStart (w.log (.phase .acquiring)) macEthmac 0)
  have first : Silent started := by
    refine ⟨rfl, rfl, ?_, ?_⟩ <;> simp [started, udpSetBroadcast, udpStart, World.log, blank,
      standingAfter, dispositions, Standing.enter, Standing.first]
  unfold main
  dsimp only
  split
  · exact leaseLoop_settled bus patience rounds first.loopback.loopback.loopback.settled
  · exact leaseLoop_settled bus patience rounds first.settled

/-! ## The request slot during a renewal -/

structure SlotKept (w w' : World σ) : Prop where
  bus : w'.bus = w.bus
  pending : w'.ebPending = w.ebPending
  stash : w'.ebStash = w.ebStash

theorem SlotKept.passive {w v v' : World σ} (kept : SlotKept w v) (effect : Passive v v') :
    SlotKept w v' :=
  ⟨effect.bus.trans kept.bus, effect.pending.trans kept.pending, effect.stash.trans kept.stash⟩

theorem SlotKept.poll {w v : World σ} (kept : SlotKept w v) (awaiting : Awaiting v) :
    SlotKept w (udpService v) := by
  rcases udpService_cases v with quiet | ⟨f, rest, -, effect⟩
  · exact kept.passive quiet
  · cases effect with
    | passive effect =>
      have taken : SlotKept w { v with inbox := rest, trace := v.trace ++ [.frame f] } :=
        ⟨kept.bus, kept.pending, kept.stash⟩
      exact taken.passive effect
    | called _ _ _ _ steady pending stash => exact ⟨steady.bus.trans kept.bus,
        pending.trans kept.pending, stash.trans kept.stash⟩
    | accepted _ chosen =>
      have choice : chosenCallback v (ipDst f) = some .eb := chosen
      rw [awaiting.chosen] at choice
      split at choice <;> simp at choice

theorem slotKept_acquiring (w : World σ) : AcquireInvariant (SlotKept w) where
  xid _ _ kept := ⟨kept.bus, kept.pending, kept.stash⟩
  setIp _ _ kept := ⟨kept.bus, kept.pending, kept.stash⟩
  setCallback _ _ _ kept := ⟨kept.bus, kept.pending, kept.stash⟩
  send v message _ kept := kept.passive (sendDhcp_passive v message)
  clear _ kept := ⟨kept.bus, kept.pending, kept.stash⟩
  poll _ awaiting kept := kept.poll awaiting
  fault _ _ kept := ⟨kept.bus, kept.pending, kept.stash⟩

/-- In every run of main, a datagram for the leased address, its /24 broadcast or
255.255.255.255 is handed to `eb_rx_callback` while serving. While the lease is renewed
`dhcp_rx_callback` is handed what is sent to 255.255.255.255 and the rest is discarded; and
no acquisition touches the request slot or the bus. -/
theorem delivered_only_while_serving (bus : Bus σ) (phy : Bool) (patience rounds : Nat) (s : σ)
    (inbox : List (Option RxFrame)) (txSlots : Nat → Lib.Memory.Mem) :
    (∀ d ∈ dispositions .first (main bus phy patience rounds (powerUp s inbox txSlots)).trace,
      WellFormedUdp d.frame → ∀ ip, d.standing.lease = some ip → AddressedTo ip (ipDst d.frame) →
        d.standing.phase = .serving ip ∧ d.reached = some (.eb, datagram d.frame) ∨
        d.standing.phase = .acquiring ∧ d.reached = heardAcquiring d.frame) ∧
    ∀ (w : World σ), SlotKept w (acquire patience (udpSetBroadcast w)).2 := by
  obtain ⟨final, settled⟩ := main_settled bus phy patience rounds
    (w := powerUp s inbox txSlots) rfl
  refine ⟨fun d member shape ip lease addressed => ?_, fun w => ?_⟩
  · have rule := settled.sorted d member shape
    cases phase : d.standing.phase with
    | acquiring =>
      rw [phase] at rule
      rcases rule with heard | ⟨unleased, -⟩
      · exact .inr ⟨rfl, heard⟩
      · cases lease.symm.trans unleased
    | serving ip' =>
      rw [phase] at rule
      obtain ⟨same, delivered⟩ := rule
      obtain rfl : ip = ip' := by simpa [lease] using same
      exact .inl ⟨rfl, delivered addressed⟩
  · exact acquire_preserves (slotKept_acquiring w) patience ⟨rfl, rfl, rfl⟩

/-- A server's answer that grants 192.168.1.50 for one second. -/
def grant (xid : UInt32) (msgType : UInt8) : List UInt8 :=
  [2, 1, 6, 0] ++ be32 xid ++ List.replicate 8 0 ++ be32 0xc0a80132 ++ List.replicate 216 0 ++
    be32 Source.Dhcp8008.dhcpMagicCookie ++
    [53, 1, msgType, 54, 4, 192, 168, 1, 2, 51, 4, 0, 0, 0, 1, 255]

def grantFrame (xid : UInt32) (msgType : UInt8) : RxFrame :=
  frameTo limitedBroadcast 67 68 (grant xid msgType)

/-- Two leases, with a write to the board between them. -/
def renewalInbox : List (Option RxFrame) :=
  let first := nextXid 0x8008a5a5
  let second := nextXid first
  [some (grantFrame first 2), some (grantFrame first 5), some popRequest.frame,
    some (grantFrame second 2), some (grantFrame second 5)]

def idleBus : Bus Unit := ⟨fun _ _ => (0, ()), fun _ _ _ => ()⟩

def renewalRun : World Unit := main idleBus false 1 2 (powerUp () renewalInbox fun _ _ => 0)

/-- The write of the second acquisition reaches nobody, and nothing is ever accepted. -/
theorem renewal_discards_write :
    (∃ d ∈ dispositions .first renewalRun.trace,
      d.standing.phase = .acquiring ∧ d.standing.lease = some 0xc0a80132 ∧ WellFormedUdp d.frame ∧
      ipDst d.frame = 0xc0a80132 ||| 0xff ∧
      (datagram d.frame).data = Source.EtherboneWire.encode header [popRecord] ∧
      d.reached = none) ∧
    accepted renewalRun.trace = [] ∧ handled renewalRun.trace = [] := by
  decide +kernel

theorem renewalRun_offered : ∃ d ∈ dispositions .first renewalRun.trace,
    d.standing.phase = .acquiring ∧ d.standing.lease = some 0xc0a80132 ∧ WellFormedUdp d.frame ∧
      ipDst d.frame = limitedBroadcast := by
  decide +kernel

/-- An offer that comes during the renewal is heard. -/
theorem delivered_only_while_serving_renewal : ∃ d ∈ dispositions .first renewalRun.trace,
    d.standing.phase = .acquiring ∧ d.standing.lease = some 0xc0a80132 ∧ WellFormedUdp d.frame ∧
      d.reached = some (.dhcp, datagram d.frame) := by
  obtain ⟨d, member, phase, lease, shape, broadcast⟩ := renewalRun_offered
  refine ⟨d, member, phase, lease, shape, ?_⟩
  rcases (delivered_only_while_serving idleBus false 1 2 () renewalInbox fun _ _ => 0).1 d member
    shape 0xc0a80132 lease (.inr (.inl broadcast)) with ⟨serving, -⟩ | ⟨-, heard⟩
  · cases phase.symm.trans serving
  · rw [heard, heardAcquiring, if_pos broadcast]

end Remote8008.Guarantees.Renewal
