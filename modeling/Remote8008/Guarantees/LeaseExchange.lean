import Remote8008.Guarantees.FrameDispatch
import Remote8008.Guarantees.MainPhases
import Remote8008.Guarantees.RequestServer
import Remote8008.Guarantees.TransactionIds
import Remote8008.Guarantees.TransmitFrame

/-!
# The exchange behind a lease

firmware/main.c:53-166 with the parser of firmware/dhcp8008.c:159-221. All attempts of
`dhcp_run` share one reply buffer, and the callback that fills it knows nothing of them.
The trace shows what each wait ended with, and so which message a lease rests on.
-/

namespace Remote8008.Guarantees.LeaseExchange
open Lib.Memory Lib.BigEndian Source.Firmware Source.UdpTransmit Source.UdpReceive
open Source.Main Source.Dhcp8008 Source.Eb8008 FirmwareEffects FrameDispatch MainPhases
open TransmitFrame RequestServer
open TransactionIds (dhcpAttempt_xid nextXid_iterate_ne)

variable {σ : Type}

/-! ## What a reply says -/

/-- A reply read field by field: a BOOTREPLY of transaction `xid` whose last message type
option is `type`. -/
structure Says (message : List UInt8) (xid : UInt32) (type : UInt8) (reply : Reply) : Prop where
  op : byteAt message 0 = .ok dhcpOpBootreply
  xid : getBe32 message 4 = .ok xid
  cookie : getBe32 message 236 = .ok dhcpMagicCookie
  yiaddr : getBe32 message 16 = .ok reply.ip
  options : optionLoop message (message.length + 1) dhcpOptionsOffset ⟨none, 0, 0⟩ =
    .ok ⟨some type, reply.server, reply.leaseSecs⟩

theorem bind_eq_ok {ε α β : Type} {step : Except ε α} {next : α → Except ε β} {value : β}
    (h : (step >>= next) = .ok value) : ∃ x, step = .ok x ∧ next x = .ok value := by
  cases step with
  | error e => cases h
  | ok x => exact ⟨x, rfl, h⟩

theorem says_of_parseReply {message : List UInt8} {xid : UInt32} {type : UInt8} {reply : Reply}
    (h : parseReply message xid type = .ok (some reply)) : Says message xid type reply := by
  unfold parseReply at h
  split at h
  · cases h
  obtain ⟨op, readOp, h⟩ := bind_eq_ok h
  split at h
  · cases h
  next isReply =>
  obtain ⟨gotXid, readXid, h⟩ := bind_eq_ok h
  split at h
  · cases h
  next ours =>
  obtain ⟨cookie, readCookie, h⟩ := bind_eq_ok h
  split at h
  · cases h
  next magic =>
  obtain ⟨yiaddr, readYiaddr, h⟩ := bind_eq_ok h
  obtain ⟨seen, readOptions, h⟩ := bind_eq_ok h
  split at h
  · cases h
  next typed =>
  obtain rfl : reply = ⟨yiaddr, seen.server, seen.lease⟩ := by
    simpa [pure, Except.pure, eq_comm] using h
  rw [not_not] at isReply ours magic typed
  exact ⟨isReply ▸ readOp, ours ▸ readXid, magic ▸ readCookie, readYiaddr, typed ▸ readOptions⟩

/-! ## Waits -/

/-- What `dhcp_rx_callback` lets through. -/
def FromServer (d : Datagram) : Prop := d.dstPort = dhcpClientPort ∧ d.srcPort = dhcpServerPort

/-- The bytes it keeps. -/
def stash (d : Datagram) : List UInt8 := d.data.take rxMsgbufSize

/-- What is seen in a wait that goes on. -/
def Passing : Obs → Prop
  | .frame _ | .transmit _ => True
  | .callback .dhcp d => ¬ FromServer d
  | _ => False

theorem dhcpRxCallback_stashes (w : World σ) {d : Datagram} (server : FromServer d) :
    (dhcpRxCallback w d).rxGot = true ∧ stashedReply (dhcpRxCallback w d) = stash d := by
  have length : (if d.data.length > rxMsgbufSize then rxMsgbufSize else d.data.length) =
      (d.data.take rxMsgbufSize).length := by
    rw [List.length_take]
    split <;> omega
  have accepted : ¬ (d.dstPort ≠ dhcpClientPort ∨ d.srcPort ≠ dhcpServerPort) := by
    simp [server.1, server.2]
  rw [dhcpRxCallback, if_neg accepted]
  refine ⟨rfl, ?_⟩
  have kept : d.data.take (d.data.take rxMsgbufSize).length = stash d := by
    simp [stash, List.take_eq_take_iff]
  simp only [stashedReply, length, kept]
  exact load_store _ 0 _

theorem dhcpRxCallback_ignores (w : World σ) {d : Datagram} (other : ¬ FromServer d) :
    dhcpRxCallback w d = w := by
  rw [dhcpRxCallback, if_pos]
  unfold FromServer at other
  tauto

/-- What one poll of a wait does to the mailbox. -/
inductive Polled (w w' : World σ) : Prop where
  | passed (seen : List Obs) (trace : w'.trace = w.trace ++ seen) (passing : ∀ o ∈ seen, Passing o)
      (got : w'.rxGot = w.rxGot)
  | answered (f : RxFrame) (server : FromServer (datagram f))
      (trace : w'.trace = w.trace ++ [.frame f, .callback .dhcp (datagram f)])
      (got : w'.rxGot = true) (stashed : stashedReply w' = stash (datagram f))

theorem Polled.transmits {f : RxFrame} {w w' : World σ} {rest : List (Option RxFrame)}
    (effect : Passive { w with inbox := rest, trace := w.trace ++ [.frame f] } w')
    (got : w'.rxGot = w.rxGot) : Polled w w' := by
  obtain ⟨sent, trace⟩ := effect.trace
  refine .passed (.frame f :: sent.map .transmit) (by simp [trace]) ?_ got
  simp [Passing]

theorem poll_awaiting {w : World σ} (awaiting : Awaiting w) : Polled w (udpService w) := by
  rcases udpService_handled w with ⟨rest, ran⟩ | ⟨f, rest, -, handled⟩
  · rw [ran]
    exact .passed [] (by simp) (by simp) rfl
  · generalize udpService w = w' at handled
    cases handled with
    | ignored => exact .transmits (.refl _) rfl
    | learned _ => exact .transmits (link_passive ..) rfl
    | answeredArp _ => exact .transmits (sendArp_passive ..) rfl
    | answeredEcho _ =>
      exact .transmits ((setTxbuffer_passive _ _).trans (sendPacket_passive _ _)) rfl
    | unclaimed => exact .transmits (link_passive ..) rfl
    | delivered target _ chosen =>
      -- the filter and the callback of the wait leave `dhcp_rx_callback` as the only target
      have choice : chosenCallback w (ipDst f) = some target := chosen
      rw [awaiting.chosen] at choice
      split at choice
      · obtain rfl : target = .dhcp := by simpa using choice.symm
        let called := World.log { w with
          inbox := rest
          trace := w.trace ++ [.frame f]
          lastSrcMac := srcMac f } (.callback .dhcp (datagram f))
        change Polled w (dhcpRxCallback called (datagram f))
        have trace : called.trace = w.trace ++ [.frame f, .callback .dhcp (datagram f)] := by
          simp [called, World.log]
        by_cases server : FromServer (datagram f)
        · obtain ⟨got, stashed⟩ := dhcpRxCallback_stashes called server
          obtain ⟨_, _, _, ran⟩ := dhcpRxCallback_effect called (datagram f)
          refine .answered f server ?_ got stashed
          rw [ran]
          exact trace
        · rw [dhcpRxCallback_ignores called server]
          refine .passed [.frame f, .callback .dhcp (datagram f)] trace ?_ rfl
          simp [Passing, server]
      · cases choice

/-- A wait that ends with a reply ends with the first datagram from the server port. -/
theorem awaitReply_answered {left : Nat} {w w' : World σ} (awaiting : Awaiting w)
    (clear : w.rxGot = false) (ended : awaitReply left w = (true, w')) :
    ∃ waited f, FromServer (datagram f) ∧ (∀ o ∈ waited, Passing o) ∧
      w'.trace = w.trace ++ waited ++ [.frame f, .callback .dhcp (datagram f)] ∧
      stashedReply w' = stash (datagram f) := by
  induction left generalizing w with
  | zero => cases ended
  | succ left ih =>
    unfold awaitReply at ended
    dsimp only at ended
    cases poll_awaiting awaiting with
    | passed seen trace passing got =>
      rw [if_neg (by simp [got, clear])] at ended
      obtain ⟨waited, f, server, rest, later, stashed⟩ :=
        ih awaiting.service (got.trans clear) ended
      refine ⟨seen ++ waited, f, server, ?_, by simp [later, trace], stashed⟩
      intro o member
      exact (List.mem_append.mp member).elim (passing o) (rest o)
    | answered f server trace got stashed =>
      rw [if_pos got] at ended
      obtain rfl : udpService w = w' := by simpa using ended
      exact ⟨[], f, server, by simp, by simp [trace], stashed⟩

/-! ## One exchange -/

/-- The trace of a message sent by the client and the datagram that ended the wait for
its answer. -/
inductive Exchanged (message : List UInt8) : Datagram → List Obs → Prop where
  | intro (sent : List UInt8) (waited : List Obs) (f : RxFrame)
      (carries : ∃ destmac srcmac dstIp,
        CarriesUdp sent destmac srcmac 0 dstIp dhcpClientPort dhcpServerPort message)
      (passing : ∀ o ∈ waited, Passing o) (server : FromServer (datagram f)) :
      Exchanged message (datagram f)
        (.transmit sent :: waited ++ [.frame f, .callback .dhcp (datagram f)])

theorem exchange_answered {w w' : World σ} {message : List UInt8}
    (listening : w.rxCallback = some .dhcp) (ended : exchange w message = (true, w')) :
    ∃ answer seen, w'.trace = w.trace ++ seen ∧ Exchanged message answer seen ∧
      stashedReply w' = stash answer := by
  unfold exchange at ended
  split at ended
  · cases ended
  next sent accepted =>
    obtain ⟨frame, trace, carries⟩ := sendDhcp_carries accepted
    have callback : sent.rxCallback = some .dhcp := by
      have kept := (sendDhcp_passive (udpSetIp w 0) message).rxCallback
      rw [accepted] at kept
      exact kept.trans listening
    obtain ⟨waited, f, server, passing, later, stashed⟩ := awaitReply_answered
      (w := { udpSetIp sent limitedBroadcast with rxGot := false }) ⟨rfl, callback⟩ rfl ended
    refine ⟨datagram f, _, ?_, .intro frame waited f ⟨_, _, _, carries⟩ passing server, stashed⟩
    simp [later, udpSetIp, trace]

/-! ## One attempt -/

/-- The settings between two waits: nothing but the callback matters. -/
theorem trivial_acquiring : AcquireInvariant (σ := σ) fun _ => True :=
  ⟨by simp, by simp, by simp, by simp, by simp, by simp, by simp⟩

theorem exchange_listens {w : World σ} (message : List UInt8)
    (listening : w.rxCallback = some .dhcp) : (exchange w message).2.rxCallback = some .dhcp :=
  (exchange_preserves trivial_acquiring message ⟨trivial, listening⟩).2

theorem parsed_some {w w' : World σ} {result : Except Fault (Option Reply)} {reply : Reply}
    (h : parsed w result = (some reply, w')) : result = .ok (some reply) ∧ w' = w := by
  unfold parsed at h
  split at h
  · obtain ⟨rfl, rfl⟩ := Prod.mk.inj h
    exact ⟨rfl, rfl⟩
  · cases h

/-- The trace of the attempt that yields a lease: an exchange that ends with an offer, and
one that requests its address and ends with the acknowledgement. -/
inductive Granted (xid : UInt32) (lease : Lease) : List Obs → Prop where
  | intro (offered acked : Datagram) (offer ack : Reply) (first second : List Obs)
      (discovered : Exchanged (dhcpBuildDiscover chaddrEtherbone xid) offered first)
      (offerParsed : dhcpParseOffer (stash offered) xid = .ok (some offer))
      (offerSays : Says (stash offered) xid dhcpMsgOffer offer)
      (offerIp : offer.ip = lease.ip)
      (requested : Exchanged (dhcpBuildRequest chaddrEtherbone xid lease.ip offer.server) acked
        second)
      (ackParsed : dhcpParseAck (stash acked) xid = .ok (some ack))
      (ackSays : Says (stash acked) xid dhcpMsgAck ack)
      (ackIp : ack.ip = lease.ip)
      (secs : lease.secs = if ack.leaseSecs = 0 then 3600 else ack.leaseSecs) :
      Granted xid lease (first ++ second)

theorem requestLease_granted {w w' : World σ} {xid : UInt32} {offer : Reply} {lease : Lease}
    (listening : w.rxCallback = some .dhcp) (h : requestLease w xid offer = (some lease, w')) :
    ∃ acked ack seen, w'.trace = w.trace ++ seen ∧
      Exchanged (dhcpBuildRequest chaddrEtherbone xid offer.ip offer.server) acked seen ∧
      dhcpParseAck (stash acked) xid = .ok (some ack) ∧ ack.ip = offer.ip ∧ lease.ip = offer.ip ∧
      lease.secs = if ack.leaseSecs = 0 then 3600 else ack.leaseSecs := by
  unfold requestLease at h
  split at h
  · cases h
  next answered ended =>
    obtain ⟨acked, seen, trace, exchanged, stashed⟩ := exchange_answered listening ended
    split at h
    · cases h
    next ack read found =>
      obtain ⟨parse, rfl⟩ := parsed_some found
      rw [stashed] at parse
      split at h
      · cases h
      next same =>
        obtain ⟨granted, rfl⟩ := Prod.mk.inj h
        obtain rfl : _ = lease := Option.some.inj granted
        rw [not_not] at same
        refine ⟨acked, ack, seen, trace, exchanged, parse, same, same, ?_⟩
        simp

theorem dhcpAttempt_granted {w w' : World σ} {lease : Lease}
    (listening : w.rxCallback = some .dhcp) (h : dhcpAttempt w = (some lease, w')) :
    ∃ seen, w'.trace = w.trace ++ seen ∧ Granted (nextXid w.xid) lease seen := by
  unfold dhcpAttempt at h
  dsimp only at h
  split at h
  · cases h
  next answered ended =>
    have still := exchange_listens (w := { w with xid := nextXid w.xid })
      (dhcpBuildDiscover chaddrEtherbone (nextXid w.xid)) listening
    rw [ended] at still
    obtain ⟨offered, first, trace, discovered, stashed⟩ := exchange_answered
      (w := { w with xid := nextXid w.xid }) listening ended
    split at h
    · cases h
    next offer read found =>
      obtain ⟨parse, rfl⟩ := parsed_some found
      rw [stashed] at parse
      obtain ⟨acked, ack, second, later, requested, ackParse, sameAck, sameLease, secs⟩ :=
        requestLease_granted still h
      rw [← sameLease] at requested sameAck
      refine ⟨first ++ second, by simp [later, trace], ?_⟩
      exact .intro offered acked offer ack first second discovered parse (says_of_parseReply parse)
        sameLease.symm requested ackParse (says_of_parseReply ackParse) sameAck secs

/-! ## The attempts of a run -/

def afterAttempts (k : Nat) : World σ → World σ := (fun v => (dhcpAttempt v).2)^[k]

theorem afterAttempts_succ (k : Nat) (w : World σ) :
    afterAttempts (k + 1) w = afterAttempts k (dhcpAttempt w).2 := rfl

theorem afterAttempts_succ' (k : Nat) (w : World σ) :
    afterAttempts (k + 1) w = (dhcpAttempt (afterAttempts k w)).2 :=
  Function.iterate_succ_apply' ..

/-- The loop stops at the first attempt that yields a lease. -/
theorem dhcpTries_cases (left : Nat) (w : World σ) :
    (∃ k < left, ∃ lease, (∀ j < k, (dhcpAttempt (afterAttempts j w)).1 = none) ∧
      dhcpAttempt (afterAttempts k w) = (some lease, afterAttempts (k + 1) w) ∧
      dhcpTries left w = (some lease, udpSetCallback (afterAttempts (k + 1) w) none)) ∨
    (∀ j < left, (dhcpAttempt (afterAttempts j w)).1 = none) ∧
      dhcpTries left w = (none, udpSetCallback (afterAttempts left w) none) := by
  induction left generalizing w with
  | zero => exact .inr ⟨by simp, rfl⟩
  | succ left ih =>
    unfold dhcpTries
    split
    next lease w' ended =>
      have after : afterAttempts 1 w = w' := congrArg Prod.snd ended
      exact .inl ⟨0, by omega, lease, by simp, by rw [after]; exact ended, by rw [after]⟩
    next w' ended =>
      have after : ∀ k, afterAttempts (k + 1) w = afterAttempts k w' := by
        intro k
        rw [afterAttempts_succ, ended]
      have earlier : ∀ {n : Nat}, (∀ j < n, (dhcpAttempt (afterAttempts j w')).1 = none) →
          ∀ j < n + 1, (dhcpAttempt (afterAttempts j w)).1 = none := by
        intro n later j below
        cases j with
        | zero => exact congrArg Prod.fst ended
        | succ j =>
          rw [after]
          exact later j (by omega)
      rcases ih w' with ⟨k, below, lease, failed, got, result⟩ | ⟨failed, result⟩
      · refine .inl ⟨k + 1, by omega, lease, earlier failed, ?_, ?_⟩
        · rw [after, after]
          exact got
        · rw [after]
          exact result
      · refine .inr ⟨earlier failed, ?_⟩
        rw [after]
        exact result

/-- The board before attempt `k` of `dhcp_run`, counted from zero. -/
def beforeAttempt (w : World σ) (k : Nat) : World σ :=
  afterAttempts k (udpSetCallback w (some .dhcp))

theorem beforeAttempt_listens (w : World σ) (k : Nat) :
    (beforeAttempt w k).rxCallback = some .dhcp := by
  induction k with
  | zero => rfl
  | succ k ih =>
    rw [beforeAttempt, afterAttempts_succ']
    exact (dhcpAttempt_preserves trivial_acquiring ⟨trivial, ih⟩).2

theorem beforeAttempt_xid (w : World σ) (k : Nat) :
    (beforeAttempt w k).xid = nextXid^[k] w.xid := by
  induction k with
  | zero => rfl
  | succ k ih =>
    rw [Function.iterate_succ_apply', ← ih, beforeAttempt, afterAttempts_succ']
    exact dhcpAttempt_xid (beforeAttempt w k)

/-- How a run ends. -/
theorem dhcpRun_cases (w : World σ) :
    (∃ k < dhcpMaxTries, ∃ lease, (∀ j < k, (dhcpAttempt (beforeAttempt w j)).1 = none) ∧
      dhcpAttempt (beforeAttempt w k) = (some lease, beforeAttempt w (k + 1)) ∧
      dhcpRun w = (some lease, udpSetCallback (beforeAttempt w (k + 1)) none)) ∨
    (∀ j < dhcpMaxTries, (dhcpAttempt (beforeAttempt w j)).1 = none) ∧
      dhcpRun w = (none, udpSetCallback (beforeAttempt w dhcpMaxTries) none) :=
  dhcpTries_cases dhcpMaxTries (udpSetCallback w (some .dhcp))

/-! ## The run -/

/-- A lease comes from the last attempt alone: from an OFFER and an ACK of that attempt's
transaction, the ACK taken from the MAC after the REQUEST for the offered address was
sent, and no earlier draw of the last `2 ^ 32` had that transaction id. Without a lease
five attempts were made. -/
theorem lease_from_last_attempt (w : World σ) :
    (∀ lease, (dhcpRun w).1 = some lease → ∃ k < dhcpMaxTries, ∃ seen,
      (∀ j < k, (dhcpAttempt (beforeAttempt w j)).1 = none) ∧
      (dhcpRun w).2.trace = (beforeAttempt w k).trace ++ seen ∧
      Granted (nextXid^[k + 1] w.xid) lease seen ∧
      ∀ n older, 0 < n → n < 2 ^ 32 → nextXid^[n] older = nextXid^[k + 1] w.xid →
        older ≠ nextXid^[k + 1] w.xid) ∧
    ((dhcpRun w).1 = none →
      (∀ j < dhcpMaxTries, (dhcpAttempt (beforeAttempt w j)).1 = none) ∧
      (dhcpRun w).2 = udpSetCallback (beforeAttempt w dhcpMaxTries) none ∧
      (dhcpRun w).2.xid = nextXid^[dhcpMaxTries] w.xid) ∧
    (dhcpRun w).2.rxCallback = none := by
  have settings : ∀ v : World σ, (udpSetCallback v none).rxCallback = none ∧
      (udpSetCallback v none).trace = v.trace ∧ (udpSetCallback v none).xid = v.xid :=
    fun _ => ⟨rfl, rfl, rfl⟩
  rcases dhcpRun_cases w with ⟨k, below, lease, failed, attempt, result⟩ | ⟨failed, result⟩
  · obtain ⟨seen, trace, granted⟩ := dhcpAttempt_granted (beforeAttempt_listens w k) attempt
    rw [beforeAttempt_xid, ← Function.iterate_succ_apply' nextXid] at granted
    simp only [result, settings, trace, Option.some.injEq, reduceCtorEq, false_implies, and_true]
    rintro _ rfl
    refine ⟨k, below, seen, failed, rfl, granted, ?_⟩
    rintro n older positive early drawn rfl
    exact nextXid_iterate_ne positive early _ drawn
  · simp only [result, settings, beforeAttempt_xid, reduceCtorEq, false_implies, implies_true,
      true_and, and_true, forall_const]
    exact failed

/-! ## A reply to somebody else -/

/-- A server's reply that gives 192.168.1.50 to the client `chaddr`, for an hour and a
minute. -/
def replyTo (chaddr : Mac) (xid : UInt32) (msgType : UInt8) : List UInt8 :=
  [2, 1, 6, 0] ++ be32 xid ++ List.replicate 8 0 ++ be32 0xc0a80132 ++ List.replicate 8 0 ++
    chaddr.toList ++ List.replicate 202 0 ++ be32 dhcpMagicCookie ++
    [53, 1, msgType, 54, 4, 192, 168, 1, 2, 51, 4, 0, 0, 0x0e, 0x4c, 255]

/-- A board that has just been switched on, and two replies of its first transaction. -/
def repliesTo (chaddr : Mac) : World Unit :=
  let xid := nextXid 0x8008a5a5
  udpSetBroadcast (udpStart (powerUp () [
    some (frameTo limitedBroadcast 67 68 (replyTo chaddr xid dhcpMsgOffer)),
    some (frameTo limitedBroadcast 67 68 (replyTo chaddr xid dhcpMsgAck))] fun _ _ => 0)
    macEthmac 0)

theorem lease_from_last_attempt_first :
    (dhcpRun (repliesTo chaddrEtherbone)).1 = some ⟨0xc0a80132, 3660⟩ ∧
    ∃ k seen, Granted (nextXid^[k + 1] 0x8008a5a5) ⟨0xc0a80132, 3660⟩ seen := by
  have leased : (dhcpRun (repliesTo chaddrEtherbone)).1 = some ⟨0xc0a80132, 3660⟩ := by
    decide +kernel
  obtain ⟨k, -, seen, -, -, granted, -⟩ :=
    (lease_from_last_attempt (repliesTo chaddrEtherbone)).1 _ leased
  exact ⟨leased, k, seen, granted⟩

/-- The hardware address of a message. -/
def chaddrOf (message : List UInt8) : List UInt8 := (message.drop 28).take 6

/-- Replies that carry the transaction id but are addressed to another client yield a lease. -/
theorem lease_from_foreign_reply :
    (∀ frame ∈ (repliesTo #v[2, 0, 0, 0, 0, 9]).inbox, ∀ f ∈ frame,
      WellFormedUdp f ∧ chaddrOf (datagram f).data ≠ chaddrEtherbone.toList) ∧
    (dhcpRun (repliesTo #v[2, 0, 0, 0, 0, 9])).1 = some ⟨0xc0a80132, 3660⟩ := by
  decide +kernel

end Remote8008.Guarantees.LeaseExchange
