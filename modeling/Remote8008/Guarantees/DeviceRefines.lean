import Remote8008.Guarantees.Renewal
import Remote8008.Guarantees.ServePhase

/-!
# The firmware as a device

firmware/main.c:232-329. `main` goes back and forth between the client of `LeaseClient`
and the server of `ServePhase`. The device below does so too and has no other state than
a transaction id, the frames to come and the bus. Leases, accesses to the bus and replies
of the firmware are those of the device.
-/

namespace Remote8008.Guarantees.DeviceRefines
open Lib.Memory Lib.Machine Source.Firmware Source.UdpTransmit Source.EbServe Source.UdpReceive
open Source.Main Source.Eb8008 Source.Dhcp8008 FirmwareEffects MainPhases TransactionIds
open BroadcastPeer Renewal LeaseClient ServePhase

variable {σ : Type}

/-! ## The device -/

inductive Event where
  | leased (ip : UInt32)
  | exchange (data : List UInt8) (accesses : List Access) (reply : List UInt8)
  deriving DecidableEq

structure Device (σ : Type) where
  client : Client
  bus : σ

/-- `rounds` leases, each kept to its half-life; the last acquisition may fail. -/
def Device.run (bus : Bus σ) (patience : Nat) : Nat → Device σ → Device σ × List Event
  | 0, d => (d, [])
  | rounds + 1, d =>
    match d.client.attempts (dhcpMaxTries * patience) with
    | (none, client) => (⟨client, d.bus⟩, [])
    | (some lease, client) =>
      let phase := served lease client.inbox
      let exchanged := serveAll bus d.bus phase.2
      let later := run bus patience rounds
        ⟨⟨client.xid, client.inbox.drop phase.1⟩, exchanged.1⟩
      (later.1, .leased lease.ip ::
        exchanged.2.map (fun e => .exchange e.request.data e.accesses e.reply) ++ later.2)

/-! ## What is seen of it -/

def eventOf : Obs → Option Event
  | .phase (.serving ip) => some (.leased ip)
  | .handle data accesses reply => some (.exchange data accesses reply)
  | _ => none

def history (trace : List Obs) : List Event := trace.filterMap eventOf

theorem history_append (first second : List Obs) :
    history (first ++ second) = history first ++ history second :=
  List.filterMap_append

def Marked : Obs → Prop
  | .phase _ => True
  | _ => False

/-- Within a phase the history is what the handler does. -/
theorem history_unmarked {seen : List Obs} (unmarked : ∀ o ∈ seen, ¬ Marked o) :
    history seen = (exchanges seen).map fun e => .exchange e.1 e.2.1 e.2.2 := by
  induction seen with
  | nil => rfl
  | cons o rest ih =>
    have later := ih fun o' member => unmarked o' (List.mem_cons_of_mem _ member)
    cases o with
    | phase p => exact absurd trivial (unmarked (.phase p) List.mem_cons_self)
    | handle data accesses reply => exact congrArg (Event.exchange data accesses reply :: ·) later
    | _ => exact later

/-- Between `w` and `v` lie observations with a property. -/
def Extends (ok : Obs → Prop) (w v : World σ) : Prop :=
  ∃ seen, v.trace = w.trace ++ seen ∧ ∀ o ∈ seen, ok o

theorem Extends.refl (ok : Obs → Prop) (w : World σ) : Extends ok w w :=
  ⟨[], (List.append_nil _).symm, by simp⟩

theorem Extends.trans {ok : Obs → Prop} {w v u : World σ} (first : Extends ok w v)
    (second : Extends ok v u) : Extends ok w u := by
  obtain ⟨seen, trace, fine⟩ := first
  obtain ⟨seen', trace', fine'⟩ := second
  refine ⟨seen ++ seen', by rw [trace', trace, List.append_assoc], fun o member => ?_⟩
  exact (List.mem_append.mp member).elim (fine o) (fine' o)

/-- What polls and sends are seen as. -/
def Silent (o : Obs) : Prop := eventOf o = none ∧ ¬ Marked o

theorem passive_silent {w v : World σ} (effect : Passive w v) : Extends Silent w v := by
  obtain ⟨sent, trace⟩ := effect.trace
  refine ⟨sent.map .transmit, trace, ?_⟩
  simp [Silent, eventOf, Marked]

theorem poll_silent (w : World σ) : Extends Silent w (udpService w) := by
  rcases udpService_cases w with quiet | ⟨f, rest, -, effect⟩
  · exact passive_silent quiet
  · have arrived : Extends Silent w { w with inbox := rest, trace := w.trace ++ [.frame f] } :=
      ⟨[.frame f], rfl, by simp [Silent, eventOf, Marked]⟩
    refine arrived.trans ?_
    cases effect with
    | passive effect => exact passive_silent effect
    | called _ _ _ _ _ _ _ trace => exact ⟨_, trace, by simp [Silent, eventOf, Marked]⟩
    | accepted _ _ _ _ _ _ _ trace => exact ⟨_, trace, by simp [Silent, eventOf, Marked]⟩

theorem history_silent {seen : List Obs} (silent : ∀ o ∈ seen, Silent o) : history seen = [] :=
  List.filterMap_eq_nil_iff.mpr fun o member => (silent o member).1

/-! ## Acquiring -/

/-- An acquisition shows nothing of the device, but for a reply that cannot be parsed. -/
theorem silent_acquiring (w : World σ) : AcquireInvariant (Extends Silent w) where
  xid _ _ h := h
  setIp _ _ h := h
  setCallback _ _ _ h := h
  send v message _ h := h.trans (passive_silent (sendDhcp_passive v message))
  clear _ h := h
  poll v _ h := h.trans (poll_silent v)
  fault v f h := h.trans ⟨[.fault f], rfl, by simp [Silent, eventOf, Marked]⟩

/-! ## Serving -/

theorem unmarked_serving (bus : Bus σ) (ip : UInt32) (w : World σ) :
    ServeInvariant bus ip (Extends (fun o => ¬ Marked o) w) where
  poll v _ h := h.trans <| by
    obtain ⟨seen, trace, silent⟩ := poll_silent v
    exact ⟨seen, trace, fun o member => (silent o member).2⟩
  serve v _ h := h.trans <| by
    obtain ⟨seen, trace, quiet⟩ := ebServePending_trace bus v
    refine ⟨seen, trace, fun o member marked => ?_⟩
    have still := quiet o member
    cases o <;> simp [Marked, Obs.quiet] at marked still
  announce v _ h := h.trans <| by
    obtain ⟨seen, trace, silent⟩ := passive_silent (udpAnnounceArp_passive v)
    exact ⟨seen, trace, fun o member => (silent o member).2⟩
  request v target _ h := h.trans <| by
    obtain ⟨seen, trace, silent⟩ :=
      passive_silent (sendArp_passive v Mac.broadcast arpOpcodeRequest Mac.zero target)
    exact ⟨seen, trace, fun o member => (silent o member).2⟩
  cache _ _ _ h := h

theorem xid_serving (bus : Bus σ) (ip x : UInt32) :
    ServeInvariant (σ := σ) bus ip (fun v => v.xid = x) where
  poll v _ same := (udpService_xid v).trans same
  serve v _ same := (ebServePending_xid bus v).trans same
  announce v _ same := (udpAnnounceArp_xid v).trans same
  request v _ _ same := (sendArp_xid v _ _ _ _).trans same
  cache _ _ _ same := same

/-- What the device sees of the board. -/
def deviceOf (w : World σ) : Device σ := ⟨view w, w.bus⟩

theorem serve_xid (bus : Bus σ) (lease : Lease) (w : World σ) :
    (serve bus lease w).xid = w.xid :=
  @serve_preserves σ bus lease _ (fun v => v.xid = w.xid) (xid_serving bus lease.ip w.xid)
    (fun _ same => same) w rfl

/-- A serve phase, as the device has it. -/
theorem serve_refines (bus : Bus σ) (lease : Lease) {w : World σ} (free : w.ebPending = false) :
    deviceOf (serve bus lease w) =
        ⟨⟨w.xid, w.inbox.drop (served lease w.inbox).1⟩,
          (serveAll bus w.bus (served lease w.inbox).2).1⟩ ∧
      (serve bus lease w).ebPending = false ∧
      ∃ seen, (serve bus lease w).trace = w.trace ++ seen ∧ history seen = .leased lease.ip ::
        (serveAll bus w.bus (served lease w.inbox).2).2.map
          (fun e => .exchange e.request.data e.accesses e.reply) := by
  let opened := openServing lease.ip w
  let ticked := serveTicks bus lease.ip (lease.secs.toNat / 2) (udpAnnounceArp opened)
  have ready : Ready lease.ip opened := ⟨⟨rfl, rfl, rfl⟩, free⟩
  have advances : Advances bus lease.ip (served lease w.inbox).1 (served lease w.inbox).2 opened
    ticked := serve_advances bus lease ready
  obtain ⟨seen, trace, behaves⟩ := advances.behaves
  have announced := announce_preserves (unmarked_serving bus lease.ip opened)
    ⟨ready.serving, .refl _ _⟩
  obtain ⟨-, ⟨seen', trace', unmarked⟩⟩ := serveTicks_preserves
    (unmarked_serving bus lease.ip opened) (lease.secs.toNat / 2) announced
  obtain rfl : seen' = seen := List.append_cancel_left (trace'.symm.trans trace)
  have within := history_unmarked unmarked
  rw [behaves.handles, List.map_map] at within
  refine ⟨?_, advances.ready.free, [.phase (.serving lease.ip)] ++ seen' ++ [.phase .acquiring],
    ?_, ?_⟩
  · have xid := serve_xid bus lease w
    have bus' : (serve bus lease w).bus = (serveAll bus w.bus (served lease w.inbox).2).1 :=
      behaves.moves
    have inbox : (serve bus lease w).inbox = w.inbox.drop (served lease w.inbox).1 :=
      advances.inbox
    simp only [deviceOf, view, xid, bus', inbox]
  · change ticked.trace ++ [.phase .acquiring] = _
    rw [trace]
    simp [opened, openServing, World.log, udpSetIp, udpSetCallback, udpSetBroadcastCallback]
  · have marks : history [.phase (.serving lease.ip)] = [.leased lease.ip] ∧
        history [.phase .acquiring] = [] := ⟨rfl, rfl⟩
    rw [history_append, history_append, within, marks.1, marks.2, List.append_nil]
    rfl

/-! ## Leases in turn -/

theorem leaseLoop_refines (bus : Bus σ) (patience rounds : Nat) {w : World σ}
    (genuine : ∀ f, some f ∈ w.inbox → ¬ Spoofs f) (free : w.ebPending = false) :
    deviceOf (leaseLoop bus patience rounds w) =
        ((deviceOf w).run bus patience rounds).1 ∧
      ∃ seen, (leaseLoop bus patience rounds w).trace = w.trace ++ seen ∧
        history seen = ((deviceOf w).run bus patience rounds).2 := by
  induction rounds generalizing w with
  | zero => exact ⟨rfl, [], (List.append_nil _).symm, rfl⟩
  | succ rounds ih =>
    let ready := udpSetBroadcast w
    have peered : Served ready := ⟨⟨rfl, rfl⟩, genuine⟩
    have acquired := acquire_refines_client patience ready peered
    have kept := acquire_preserves (slotKept_acquiring ready) patience ⟨rfl, rfl, rfl⟩
    have still := acquire_preserves served_acquiring patience peered
    obtain ⟨early, trace, silent⟩ :=
      acquire_preserves (silent_acquiring ready) patience (.refl _ _)
    have client : (deviceOf w).client = view ready := rfl
    have before : (deviceOf w).bus = ready.bus ∧ w.trace = ready.trace ∧ ready.ebPending = false :=
      ⟨rfl, rfl, free⟩
    unfold leaseLoop Device.run
    rw [client, before.1, before.2.1, ← acquired]
    change Served (acquire patience ready).2 at still
    generalize acquire patience ready = ended at kept still trace ⊢
    obtain ⟨lease, w'⟩ := ended
    have bus' : w'.bus = ready.bus := kept.bus
    cases lease with
    | none =>
      refine ⟨?_, early, trace, history_silent silent⟩
      simp only [deviceOf, bus']
    | some lease =>
      obtain ⟨phase, idle, seen, trace', shown⟩ :=
        serve_refines bus lease (kept.pending.trans before.2.2)
      have left : ∀ f, some f ∈ (serve bus lease w').inbox → ¬ Spoofs f := by
        have inbox : (serve bus lease w').inbox = w'.inbox.drop (served lease w'.inbox).1 :=
          congrArg (fun d => d.client.inbox) phase
        intro f member
        rw [inbox] at member
        exact still.genuine f (List.mem_of_mem_drop member)
      obtain ⟨ends, later, trace'', shown'⟩ := ih left idle
      rw [phase] at ends shown'
      rw [bus'] at ends shown' shown
      refine ⟨ends, early ++ seen ++ later, ?_, ?_⟩
      · simp only
        rw [trace'', trace', trace]
        simp
      · rw [history_append, history_append, history_silent silent, shown, shown']
        rfl

/-! ## From power-up -/

/-- Polls before a callback is set leave frames and time, nothing else. -/
structure Booted (polls draws : Nat) (w v : World σ) : Prop where
  inbox : v.inbox = w.inbox.drop polls
  xid : v.xid = nextXid^[draws] w.xid
  bus : v.bus = w.bus
  free : v.ebPending = w.ebPending
  deaf : v.rxCallback = none ∧ v.bxCallback = none
  shown : Extends Silent w v

theorem Booted.poll {polls draws : Nat} {w v : World σ} (booted : Booted polls draws w v) :
    Booted (polls + 1) draws w (udpService v) := by
  have steady := udpService_steady v
  refine ⟨?_, (udpService_xid v).trans booted.xid, steady.bus.trans booted.bus, ?_,
    ⟨steady.rxCallback.trans booted.deaf.1, steady.bxCallback.trans booted.deaf.2⟩,
    booted.shown.trans (poll_silent v)⟩
  · rw [udpService_inbox, booted.inbox, List.tail_drop]
  · rcases udpService_cases v with quiet | ⟨f, rest, -, effect⟩
    · exact quiet.pending.trans booted.free
    · cases effect with
      | passive effect => exact effect.pending.trans booted.free
      | called _ _ _ _ _ pending => exact pending.trans booted.free
      | accepted _ chosen =>
        have choice : chosenCallback v (ipDst f) = some .eb := chosen
        simp [chosenCallback, booted.deaf.1, booted.deaf.2] at choice

theorem Booted.polls {polls draws : Nat} (count : Nat) {w v : World σ}
    (booted : Booted polls draws w v) : Booted (polls + count) draws w (udpService^[count] v) := by
  induction count with
  | zero => exact booted
  | succ count ih =>
    rw [Function.iterate_succ_apply', ← Nat.add_assoc]
    exact ih.poll

/-- A round of the loopback test: one id, and its polls. -/
theorem Booted.loopback {polls draws : Nat} {w v : World σ} (booted : Booted polls draws w v) :
    Booted (polls + 20000) (draws + 1) w (loopback v) := by
  let drawn : World σ := udpSetIp { v with xid := nextXid v.xid } 0
  let message := dhcpBuildDiscover chaddrEtherbone (nextXid v.xid)
  have passive := sendDhcp_passive drawn message
  have shown : Extends Silent w drawn := booted.shown
  have sent : Booted polls (draws + 1) w (sendDhcp drawn message).2 := by
    refine ⟨(sendDhcp_inbox drawn message).trans booted.inbox, ?_, passive.bus.trans booted.bus,
      passive.pending.trans booted.free, ⟨passive.rxCallback.trans booted.deaf.1,
        passive.bxCallback.trans booted.deaf.2⟩, shown.trans (passive_silent passive)⟩
    rw [sendDhcp_xid, Function.iterate_succ_apply', ← booted.xid]
    rfl
  exact sent.polls 20000

/-- The device at the end of the loopback test, which needs a PHY. -/
def Device.start (phy : Bool) (inbox : List (Option RxFrame)) (s : σ) : Device σ :=
  if phy then ⟨⟨nextXid^[3] 0x8008a5a5, inbox.drop 60000⟩, s⟩ else ⟨⟨0x8008a5a5, inbox⟩, s⟩

/-- From power-up the firmware is the device: in every run of main in which no ARP reply takes
the broadcast address, the leases, the accesses to the bus and the replies are the
device's, in the same order, and so are the bus, the frames left and the transaction id. -/
theorem main_refines_device (bus : Bus σ) (phy : Bool) (patience rounds : Nat) (s : σ)
    (inbox : List (Option RxFrame)) (txSlots : Nat → Mem)
    (genuine : ∀ f, some f ∈ inbox → ¬ Spoofs f) :
    let device := (Device.start phy inbox s).run bus patience rounds
    deviceOf (main bus phy patience rounds (powerUp s inbox txSlots)) = device.1 ∧
      history (main bus phy patience rounds (powerUp s inbox txSlots)).trace = device.2 := by
  let started := udpSetBroadcast (udpStart ((powerUp s inbox txSlots).log (.phase .acquiring))
    macEthmac 0)
  have first : Booted 0 0 started started := ⟨rfl, rfl, rfl, rfl, ⟨rfl, rfl⟩, .refl _ _⟩
  have boots : main bus phy patience rounds (powerUp s inbox txSlots) = leaseLoop bus patience
      rounds (if phy then loopback (loopback (loopback started)) else started) := rfl
  -- the part of the run before the first acquisition
  obtain ⟨v, ran, device, ⟨early, trace, silent⟩, free, left⟩ : ∃ v,
      main bus phy patience rounds (powerUp s inbox txSlots) = leaseLoop bus patience rounds v ∧
      deviceOf v = Device.start phy inbox s ∧ Extends Silent started v ∧ v.ebPending = false ∧
      ∀ f, some f ∈ v.inbox → ¬ Spoofs f := by
    cases phy with
    | false => exact ⟨started, boots, rfl, .refl _ _, rfl, genuine⟩
    | true =>
      rw [if_pos rfl] at boots
      have booted := first.loopback.loopback.loopback
      refine ⟨loopback (loopback (loopback started)), boots, ?_, booted.shown, booted.free, ?_⟩
      · simp only [deviceOf, view, booted.inbox, booted.xid, booted.bus]
        rfl
      · intro f member
        rw [booted.inbox] at member
        exact genuine f (List.mem_of_mem_drop member)
  obtain ⟨ends, later, trace', shown⟩ := leaseLoop_refines bus patience rounds left free
  rw [device] at ends shown
  refine ⟨ran ▸ ends, ?_⟩
  have marked : history started.trace = [] := rfl
  rw [ran, trace', trace, history_append, history_append, marked, history_silent silent, shown]
  rfl

/-- A lease of an hour and a minute, and a probe while it lasts. -/
def leasedInbox : List (Option RxFrame) :=
  (LeaseExchange.repliesTo chaddrEtherbone).inbox ++ RequestServer.listening.inbox

theorem main_refines_device_probe :
    history (main idleBus false 1 2 (powerUp () leasedInbox fun _ _ => 0)).trace =
      [.leased 0xc0a80132, .exchange RequestServer.probe []
        [0x4e, 0x6f, 0x12, 0x44, 0, 0, 0, 0, 0, 0, 0, 0]] := by
  have genuine : ∀ f, some f ∈ leasedInbox → ¬ Spoofs f := by
    have notArp : ∀ item ∈ leasedInbox, ∀ f ∈ item, ethertype f ≠ ethertypeArp := by
      decide +kernel
    exact fun f member spoof => notArp (some f) member f rfl spoof.toArpReplyFrom.ethertype
  rw [(main_refines_device idleBus false 1 2 () leasedInbox (fun _ _ => 0) genuine).2]
  decide +kernel

end Remote8008.Guarantees.DeviceRefines
