import Remote8008.Lib.Congruential
import Remote8008.Guarantees.DhcpOptions
import Remote8008.Guarantees.FrameDispatch
import Remote8008.Guarantees.MainPhases

/-!
# The transaction ids of a power-up

firmware/main.c:53-61,116-142. `next_xid` is the only code that moves its static, and it
moves it along a generator whose period is the whole of 32 bits. An attempt of `dhcp_run`
and a round of the loopback test draw one id each, so the ids of a boot are consecutive
draws, and a reply that carries an earlier one fails the test of the parser.
-/

namespace Remote8008.Guarantees.TransactionIds
open Lib.Machine Lib.Congruential Source.Firmware Source.UdpTransmit Source.UdpReceive
open Source.EbServe Source.Main Source.Dhcp8008 Source.Eb8008
open FirmwareEffects FrameDispatch MainPhases DhcpOptions

variable {σ : Type}

/-! ## The generator -/

theorem nextXid_toNat (x : UInt32) :
    ((nextXid x).toNat : ℤ) ≡ draw 1103515245 12345 x.toNat [ZMOD 2 ^ 32] := by
  have value : (nextXid x).toNat = (x.toNat * 1103515245 + 12345) % 2 ^ 32 := by
    simp [nextXid, UInt32.toNat_add, UInt32.toNat_mul]
  rw [value, draw, mul_comm]
  push_cast
  exact Int.mod_modEq _ _

theorem nextXid_iterate_toNat (k : Nat) (x : UInt32) :
    ((nextXid^[k] x).toNat : ℤ) ≡ (draw 1103515245 12345)^[k] x.toNat [ZMOD 2 ^ 32] := by
  induction k with
  | zero => rfl
  | succ k ih =>
    rw [Function.iterate_succ_apply', Function.iterate_succ_apply']
    exact (nextXid_toNat _).trans ((ih.mul_left _).add_right _)

/-- An id comes back only after `2 ^ 32` draws. -/
theorem nextXid_iterate_ne {k : Nat} (positive : 0 < k) (below : k < 2 ^ 32) (x : UInt32) :
    nextXid^[k] x ≠ x := by
  intro same
  have congruent := nextXid_iterate_toNat k x
  rw [same] at congruent
  have divides : (2 : ℤ) ^ 32 ∣ k := (pow_dvd_draw_iterate_sub_iff (by decide) (by decide)
    (by decide) (x.toNat : ℤ) k 32).mp congruent.dvd
  have small := Int.le_of_dvd (by omega) divides
  omega

theorem nextXid_iterate_injective {i j : Nat} (later : i < j) (near : j < i + 2 ^ 32)
    (x : UInt32) : nextXid^[i] x ≠ nextXid^[j] x := by
  intro same
  have split : nextXid^[j] x = nextXid^[j - i] (nextXid^[i] x) := by
    rw [← Function.iterate_add_apply, Nat.sub_add_cancel later.le]
  exact nextXid_iterate_ne (by omega) (by omega) (nextXid^[i] x) (split ▸ same.symm)

/-! ## Who draws -/

theorem invoke_xid (w : World σ) (d : Datagram) (target : Callback) :
    (invoke w d target).xid = w.xid := by
  cases target with
  | dhcp =>
    obtain ⟨got, msgbuf, msglen, ran⟩ := dhcpRxCallback_effect (w.log (.callback .dhcp d)) d
    rw [invoke, ran]
    rfl
  | eb =>
    let called := w.log (.callback .eb d)
    change (ebRxCallback called d).xid = w.xid
    unfold ebRxCallback
    split
    · rfl
    · split
      · rfl
      · split <;> rfl

theorem udpService_xid (w : World σ) : (udpService w).xid = w.xid := by
  rcases udpService_handled w with ⟨rest, ran⟩ | ⟨f, rest, -, handled⟩
  · rw [ran]
  · generalize udpService w = w' at handled
    cases handled with
    | delivered target => exact invoke_xid _ _ target
    | _ => rfl

theorem sendDhcp_xid (w : World σ) (message : List UInt8) :
    (sendDhcp w message).2.xid = w.xid := by
  obtain ⟨slots, slot, trace, sent⟩ := sendDhcp_effect w message
  rw [sent]

theorem awaitReply_xid (left : Nat) (w : World σ) : (awaitReply left w).2.xid = w.xid := by
  induction left generalizing w with
  | zero => rfl
  | succ left ih =>
    unfold awaitReply
    dsimp only
    split
    · exact udpService_xid w
    · exact (ih _).trans (udpService_xid w)

theorem exchange_xid (w : World σ) (message : List UInt8) :
    (exchange w message).2.xid = w.xid := by
  have sentXid := sendDhcp_xid (udpSetIp w 0) message
  unfold exchange
  split
  next sent ended =>
    rw [ended] at sentXid
    exact sentXid
  next sent ended =>
    rw [ended] at sentXid
    exact (awaitReply_xid dhcpReplyTimeoutLoops _).trans sentXid

theorem parsed_xid (w : World σ) (result : Except Fault (Option Reply)) :
    (parsed w result).2.xid = w.xid := by
  unfold parsed
  split <;> rfl

theorem requestLease_xid (w : World σ) (xid : UInt32) (offer : Reply) :
    (requestLease w xid offer).2.xid = w.xid := by
  have exchanged := exchange_xid w (dhcpBuildRequest chaddrEtherbone xid offer.ip offer.server)
  unfold requestLease
  split
  next answered ended => rwa [ended] at exchanged
  next answered ended =>
    rw [ended] at exchanged
    have read := parsed_xid answered (dhcpParseAck (stashedReply answered) xid)
    split
    next failed found =>
      rw [found] at read
      exact read.trans exchanged
    next ack failed found =>
      rw [found] at read
      split <;> exact read.trans exchanged

/-- An attempt draws one id. -/
theorem dhcpAttempt_xid (w : World σ) : (dhcpAttempt w).2.xid = nextXid w.xid := by
  have exchanged := exchange_xid { w with xid := nextXid w.xid }
    (dhcpBuildDiscover chaddrEtherbone (nextXid w.xid))
  unfold dhcpAttempt
  dsimp only
  split
  next answered ended => rwa [ended] at exchanged
  next answered ended =>
    rw [ended] at exchanged
    have read := parsed_xid answered (dhcpParseOffer (stashedReply answered) (nextXid w.xid))
    split
    next failed found =>
      rw [found] at read
      exact read.trans exchanged
    next offer offered found =>
      rw [found] at read
      exact (requestLease_xid offered _ offer).trans (read.trans exchanged)

theorem polls_xid (count : Nat) (w : World σ) : (udpService^[count] w).xid = w.xid := by
  induction count with
  | zero => rfl
  | succ count ih => rw [Function.iterate_succ_apply', udpService_xid, ih]

/-- A round of the loopback test draws one id. -/
theorem loopback_xid (w : World σ) : (loopback w).xid = nextXid w.xid := by
  let sent := (sendDhcp (udpSetIp { w with xid := nextXid w.xid } 0)
    (dhcpBuildDiscover chaddrEtherbone (nextXid w.xid))).2
  have polled : loopback w = udpService^[20000] sent := rfl
  rw [polled, polls_xid]
  exact sendDhcp_xid _ _

theorem sendPacket_xid (w : World σ) (txlen : Nat) : (sendPacket w txlen).xid = w.xid := rfl

theorem sendArp_xid (w : World σ) (destmac : Mac) (opcode : UInt16) (targetMac : Mac)
    (targetIp : UInt32) : (sendArp w destmac opcode targetMac targetIp).xid = w.xid := by
  unfold sendArp
  exact sendPacket_xid _ _

theorem udpAnnounceArp_xid (w : World σ) : (udpAnnounceArp w).xid = w.xid := by
  unfold udpAnnounceArp
  split
  · rfl
  · exact sendArp_xid _ _ _ _ _

theorem udpSend_xid (w : World σ) (srcPort dstPort : UInt16) (length : Nat) :
    (udpSend w srcPort dstPort length).2.xid = w.xid := by
  unfold udpSend
  split
  · rfl
  · split
    · rfl
    · exact sendPacket_xid _ _

theorem ebServePending_xid (bus : Bus σ) (w : World σ) : (ebServePending bus w).xid = w.xid := by
  unfold ebServePending
  split
  · split
    · rfl
    · dsimp only
      split
      · exact udpSend_xid _ _ _ _
      · rfl
  · rfl

/-! ## A power-up, operation by operation -/

/-- What `main` does, one operation at a time. -/
inductive Event where
  | phase (p : Phase)
  | start (mac : Mac) (ip : UInt32)
  | setIp (ip : UInt32)
  | setCallback (callback : Option Callback)
  | setBroadcastCallback (callback : Option Callback)
  | setBroadcast
  | loopback
  | attempt
  | announce
  | refresh (ip : UInt32)
  | service
  | serve

def step (bus : Bus σ) (w : World σ) : Event → World σ
  | .phase p => w.log (.phase p)
  | .start mac ip => udpStart w mac ip
  | .setIp ip => udpSetIp w ip
  | .setCallback callback => udpSetCallback w callback
  | .setBroadcastCallback callback => udpSetBroadcastCallback w callback
  | .setBroadcast => udpSetBroadcast w
  | .loopback => Source.Main.loopback w
  | .attempt => (dhcpAttempt w).2
  | .announce => udpAnnounceArp w
  | .refresh ip => (udpArpRefresh ip w).2
  | .service => udpService w
  | .serve => ebServePending bus w

/-- The id an operation draws: the one its messages carry and its replies are held against. -/
def drawn (w : World σ) : Event → List UInt32
  | .loopback | .attempt => [nextXid w.xid]
  | _ => []

/-- The ids drawn in a run, oldest first. -/
def ids (bus : Bus σ) (w : World σ) (events : List Event) : List UInt32 :=
  outputs (step bus) drawn w events

theorem step_xid (bus : Bus σ) (w : World σ) (event : Event) :
    (step bus w event).xid = nextXid^[(drawn w event).length] w.xid := by
  cases event with
  | loopback => exact loopback_xid w
  | attempt => exact dhcpAttempt_xid w
  | announce => exact udpAnnounceArp_xid w
  | refresh ip =>
    exact udpArpRefresh_preserves (fun v => v.xid = w.xid)
      (fun v same => (udpService_xid v).trans same)
      (fun v _ same => (sendArp_xid v _ _ _ _).trans same) (fun _ _ _ same => same) ip w rfl
  | service => exact udpService_xid w
  | serve => exact ebServePending_xid bus w
  | _ => rfl

theorem drawn_cases (w : World σ) (event : Event) :
    drawn w event = [] ∨ drawn w event = [nextXid w.xid] := by
  cases event with
  | loopback => exact .inr rfl
  | attempt => exact .inr rfl
  | _ => exact .inl rfl

theorem ids_cons (bus : Bus σ) (w : World σ) (event : Event) (rest : List Event) :
    ids bus w (event :: rest) = drawn w event ++ ids bus (step bus w event) rest := rfl

/-- The ids of a run are consecutive draws. -/
theorem ids_getElem? (bus : Bus σ) (events : List Event) (w : World σ) (k : Nat) :
    (ids bus w events)[k]? =
      if k < (ids bus w events).length then some (nextXid^[k + 1] w.xid) else none := by
  induction events generalizing w k with
  | nil => simp [ids]
  | cons event rest ih =>
    have later := ih (step bus w event)
    have moved := step_xid bus w event
    rw [ids_cons]
    rcases drawn_cases w event with none | one
    · rw [none, List.length_nil, Function.iterate_zero_apply] at moved
      rw [none, List.nil_append, later, moved]
    · rw [one, List.length_singleton, Function.iterate_one] at moved
      rw [one, List.singleton_append]
      cases k with
      | zero => simp
      | succ k =>
        rw [List.getElem?_cons_succ, later, moved, List.length_cons,
          Function.iterate_succ_apply nextXid (k + 1)]
        simp only [Nat.add_lt_add_iff_right]

/-! ## `main` as such a run -/

/-- The board gets from one state to the other by operations of `main`. -/
def Reaches (bus : Bus σ) (w w' : World σ) : Prop :=
  ∃ events, w' = run (step bus) w events

section
variable {bus : Bus σ} {w w' w'' : World σ}

theorem Reaches.refl (bus : Bus σ) (w : World σ) : Reaches bus w w := ⟨[], rfl⟩

theorem Reaches.trans (first : Reaches bus w w') (second : Reaches bus w' w'') :
    Reaches bus w w'' := by
  obtain ⟨events, rfl⟩ := first
  obtain ⟨later, rfl⟩ := second
  exact ⟨events ++ later, (run_append _ _ _ _).symm⟩

theorem Reaches.step (first : Reaches bus w w') (event : Event) :
    Reaches bus w (step bus w' event) :=
  first.trans ⟨[event], rfl⟩

theorem Reaches.ite {yes no : World σ} {condition : Prop} [Decidable condition]
    (first : Reaches bus w yes) (second : Reaches bus w no) :
    Reaches bus w (if condition then yes else no) := by
  split
  · exact first
  · exact second

variable (bus)

theorem dhcpTries_reaches (left : Nat) (w : World σ) : Reaches bus w (dhcpTries left w).2 := by
  induction left generalizing w with
  | zero => exact (Reaches.refl bus w).step (.setCallback none)
  | succ left ih =>
    have attempted := (Reaches.refl bus w).step .attempt
    unfold dhcpTries
    split
    next lease w' ended =>
      have after : TransactionIds.step bus w .attempt = w' := congrArg Prod.snd ended
      rw [after] at attempted
      exact attempted.step (.setCallback none)
    next w' ended =>
      have after : TransactionIds.step bus w .attempt = w' := congrArg Prod.snd ended
      rw [after] at attempted
      exact attempted.trans (ih w')

theorem acquire_reaches (patience : Nat) (w : World σ) :
    Reaches bus w (acquire patience w).2 := by
  induction patience generalizing w with
  | zero => exact .refl bus w
  | succ patience ih =>
    have ran : Reaches bus w (dhcpRun w).2 :=
      ((Reaches.refl bus w).step (.setCallback (some .dhcp))).trans
        (dhcpTries_reaches bus dhcpMaxTries _)
    unfold acquire
    split
    next lease w' ended => rwa [ended] at ran
    next w' ended =>
      rw [ended] at ran
      exact ran.trans (ih w')

theorem serveLoop_reaches (count : Nat) (w : World σ) :
    Reaches bus w (serveLoop bus count w) := by
  induction count generalizing w with
  | zero => exact .refl bus w
  | succ count ih =>
    exact (((Reaches.refl bus w).step .service).step .serve).trans (ih _)

theorem serveTick_reaches (ip : UInt32) (s : Nat) (w : World σ) :
    Reaches bus w (serveTick bus ip s w) := by
  have announced : Reaches bus w (if s % 30 = 0 then udpAnnounceArp w else w) :=
    .ite ((Reaches.refl bus w).step .announce) (.refl bus w)
  have refreshed : ∀ v, Reaches bus v
      (if s % 10 = 1 then (udpArpRefresh (gateway ip) v).2 else v) :=
    fun v => .ite ((Reaches.refl bus v).step (.refresh (gateway ip))) (.refl bus v)
  exact (announced.trans (refreshed _)).trans (serveLoop_reaches bus _ _)

theorem serve_reaches (lease : Lease) (w : World σ) : Reaches bus w (serve bus lease w) := by
  have opened : Reaches bus w (openServing lease.ip w) :=
    ((((Reaches.refl bus w).step (.setIp lease.ip)).step (.setCallback (some .eb))).step
      (.setBroadcastCallback (some .eb))).step (.phase (.serving lease.ip))
  have ticks : ∀ v, Reaches bus v (serveTicks bus lease.ip (lease.secs.toNat / 2) v) := by
    intro v
    exact run_invariant (Reaches bus v) (fun _ => True)
      (fun u s _ reached => reached.trans (serveTick_reaches bus lease.ip s u)) _
      (fun _ _ => trivial) v (.refl bus v)
  exact (((opened.step .announce).trans (ticks _)).step (.setCallback none)).step
    (.phase .acquiring)

theorem leaseLoop_reaches (patience rounds : Nat) (w : World σ) :
    Reaches bus w (leaseLoop bus patience rounds w) := by
  induction rounds generalizing w with
  | zero => exact .refl bus w
  | succ rounds ih =>
    have acquired := ((Reaches.refl bus w).step .setBroadcast).trans
      (acquire_reaches bus patience _)
    unfold leaseLoop
    split
    next w' ended =>
      have after : (acquire patience (TransactionIds.step bus w .setBroadcast)).2 = w' :=
        congrArg Prod.snd ended
      rwa [after] at acquired
    next lease w' ended =>
      have after : (acquire patience (TransactionIds.step bus w .setBroadcast)).2 = w' :=
        congrArg Prod.snd ended
      rw [after] at acquired
      exact (acquired.trans (serve_reaches bus lease w')).trans (ih _)

theorem main_reaches (phy : Bool) (patience rounds : Nat) (w : World σ) :
    Reaches bus w (main bus phy patience rounds w) := by
  have started : Reaches bus w
      (udpSetBroadcast (udpStart (w.log (.phase .acquiring)) macEthmac 0)) :=
    (((Reaches.refl bus w).step (.phase .acquiring)).step (.start macEthmac 0)).step .setBroadcast
  have tested := ((started.step .loopback).step .loopback).step .loopback
  exact (Reaches.ite tested started).trans (leaseLoop_reaches bus patience rounds _)

end

/-! ## Distinct ids -/

theorem stale_refused {older current : UInt32} (different : older ≠ current) {buf : List UInt8}
    (stale : HeaderFor older buf) (want : UInt8) (out : Outputs) :
    parseReplyInto buf current want out = .ok (0, out) := by
  apply parseReplyInto_ok (parseReply_foreign _ want) out
  intro header
  exact different (stale.xid.symm.trans header.xid)

/-- The generator comes back to no value within `2 ^ 32` draws. `main` is a run of its
operations, and of any `2 ^ 32` consecutive ids drawn in such a run no two are equal: a
reply that carries the earlier one is refused, and nothing is written, when it is held
against the later. -/
theorem transaction_ids_distinct (bus : Bus σ) (w : World σ) :
    (∀ (x : UInt32) (k : Nat), 0 < k → k < 2 ^ 32 → nextXid^[k] x ≠ x) ∧
    (∀ events i j older current, i < j → j < i + 2 ^ 32 →
      (ids bus w events)[i]? = some older → (ids bus w events)[j]? = some current →
      older ≠ current ∧
      ∀ buf, HeaderFor older buf → ∀ want out,
        parseReplyInto buf current want out = .ok (0, out)) ∧
    ∀ phy patience rounds, ∃ events,
      main bus phy patience rounds w = run (step bus) w events := by
  refine ⟨fun x k positive below => nextXid_iterate_ne positive below x, ?_,
    fun phy patience rounds => main_reaches bus phy patience rounds w⟩
  intro events i j older current later near first second
  rw [ids_getElem?] at first second
  split at first
  · split at second
    · obtain rfl := Option.some.inj first
      obtain rfl := Option.some.inj second
      have different := nextXid_iterate_injective (Nat.succ_lt_succ later) (by omega) w.xid
      exact ⟨different, fun buf stale => stale_refused different stale⟩
    · cases second
  · cases first

end Remote8008.Guarantees.TransactionIds
