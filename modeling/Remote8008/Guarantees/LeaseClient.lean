import Remote8008.Guarantees.BroadcastPeer
import Remote8008.Guarantees.LeaseExchange

/-!
# The acquire phase as a client of the frames it receives

firmware/main.c:59-166,280-293 and firmware/dhcp8008.c:163-225. While no lease is held
the firmware answers pings and ARP requests, keeps a one-entry peer, copies replies into
`rx_msgbuf` and rebuilds its transmit slots. None of that matters for the lease: the client
below has a transaction id and the frames to come, and nothing else.
-/

namespace Remote8008.Guarantees.LeaseClient
open Lib.Memory Lib.BigEndian Source.Firmware Source.UdpTransmit Source.UdpReceive Source.Main
open Source.Dhcp8008 FirmwareEffects FrameDispatch MainPhases LeaseExchange BroadcastPeer
open TransactionIds RequestServer Source.Eb8008

variable {σ : Type}

/-! ## The client -/

/-- What `wait_for_reply` waits for. -/
def Hears (f : RxFrame) : Prop :=
  WellFormedUdp f ∧ ipDst f = limitedBroadcast ∧ FromServer (datagram f)

instance (d : Datagram) : Decidable (FromServer d) :=
  inferInstanceAs (Decidable (d.dstPort = dhcpClientPort ∧ d.srcPort = dhcpServerPort))

instance (f : RxFrame) : Decidable (Hears f) :=
  inferInstanceAs (Decidable (WellFormedUdp f ∧ ipDst f = limitedBroadcast ∧
    FromServer (datagram f)))

structure Client where
  xid : UInt32
  inbox : List (Option RxFrame)

/-- The first reply within a number of polls, and the frames after it. -/
def firstReply : Nat → List (Option RxFrame) → Option RxFrame × List (Option RxFrame)
  | 0, inbox => (none, inbox)
  | _ + 1, [] => (none, [])
  | polls + 1, none :: rest => firstReply polls rest
  | polls + 1, some f :: rest => if Hears f then (some f, rest) else firstReply polls rest

/-- A reply that leaves its buffer is as good as none. -/
def readReply (result : Except Fault (Option Reply)) : Option Reply :=
  result.toOption.bind id

def offerIn (xid : UInt32) (f : RxFrame) : Option Reply :=
  readReply (dhcpParseOffer (stash (datagram f)) xid)

def ackIn (xid : UInt32) (f : RxFrame) : Option Reply :=
  readReply (dhcpParseAck (stash (datagram f)) xid)

/-- The lease of an acknowledgement, if it is for the offered address. -/
def granted (offer ack : Reply) : Option Lease :=
  if ack.ip ≠ offer.ip then none
  else some ⟨ack.ip, if ack.leaseSecs ≠ 0 then ack.leaseSecs else 3600⟩

/-- Of each window only the first reply is looked at. -/
def Client.attempt (c : Client) : Option Lease × Client :=
  let xid := nextXid c.xid
  match firstReply dhcpReplyTimeoutLoops c.inbox with
  | (none, inbox) => (none, ⟨xid, inbox⟩)
  | (some f, inbox) =>
    match offerIn xid f with
    | none => (none, ⟨xid, inbox⟩)
    | some offer =>
      match firstReply dhcpReplyTimeoutLoops inbox with
      | (none, inbox) => (none, ⟨xid, inbox⟩)
      | (some g, inbox) => ((ackIn xid g).bind (granted offer), ⟨xid, inbox⟩)

def Client.attempts : Nat → Client → Option Lease × Client
  | 0, c => (none, c)
  | left + 1, c =>
    match c.attempt with
    | (some lease, c) => (some lease, c)
    | (none, c) => attempts left c

theorem Client.attempts_add (m n : Nat) (c : Client) : c.attempts (m + n) =
    match c.attempts m with
    | (some lease, c) => (some lease, c)
    | (none, c) => c.attempts n := by
  induction m generalizing c with
  | zero => rw [Nat.zero_add, attempts]
  | succ m ih =>
    rw [Nat.succ_add, attempts, attempts]
    cases c.attempt with
    | mk lease c =>
      cases lease with
      | none => exact ih c
      | some lease => rfl

/-! ## A poll -/

/-- What the client knows of the board. -/
def view (w : World σ) : Client := ⟨w.xid, w.inbox⟩

/-- The peer is the broadcast address, and no frame to come takes it away. -/
structure Served (w : World σ) : Prop where
  peer : ToBroadcast w
  genuine : ∀ f, some f ∈ w.inbox → ¬ Spoofs f

theorem Served.same {w w' : World σ} (served : Served w) (mac : w'.cachedMac = w.cachedMac)
    (ip : w'.cachedIp = w.cachedIp) (inbox : w'.inbox = w.inbox) : Served w' :=
  ⟨served.peer.same mac ip, inbox ▸ served.genuine⟩

theorem sendDhcp_inbox (w : World σ) (message : List UInt8) :
    (sendDhcp w message).2.inbox = w.inbox := by
  obtain ⟨slots, slot, trace, sent⟩ := sendDhcp_effect w message
  rw [sent]

theorem invoke_inbox (w : World σ) (d : Datagram) (target : Callback) :
    (invoke w d target).inbox = w.inbox := by
  cases target with
  | dhcp =>
    obtain ⟨_, _, _, ran⟩ := dhcpRxCallback_effect (w.log (.callback .dhcp d)) d
    simp only [invoke]
    rw [ran]
    rfl
  | eb =>
    simp only [invoke]
    unfold Source.EbServe.ebRxCallback
    repeat (split; rfl)
    rfl

theorem handled_inbox {f : RxFrame} {w w' : World σ} (handled : Handled f w w') :
    w'.inbox = w.inbox := by
  cases handled with
  | delivered target _ _ => exact invoke_inbox _ _ target
  | _ => rfl

/-- A poll takes one frame, if there is one. -/
theorem udpService_inbox (w : World σ) : (udpService w).inbox = w.inbox.tail := by
  unfold udpService
  split
  next empty => rw [empty, List.tail_nil]
  next rest taken => rw [taken, List.tail_cons]
  next f rest taken =>
    rw [taken, List.tail_cons]
    exact handled_inbox (processFrame_handled f _)

theorem Served.poll {w : World σ} (served : Served w) : Served (udpService w) where
  peer := poll_peer (fun f _ taken => served.genuine f (by simp [taken])) served.peer
  genuine f later := by
    rw [udpService_inbox] at later
    exact served.genuine f (List.mem_of_mem_tail later)

theorem served_acquiring : AcquireInvariant (σ := σ) Served where
  xid _ _ served := served.same rfl rfl rfl
  setIp _ _ served := served.same rfl rfl rfl
  setCallback _ _ _ served := served.same rfl rfl rfl
  send w message _ served :=
    ⟨sendDhcp_peer served.peer message, by rw [sendDhcp_inbox]; exact served.genuine⟩
  clear _ served := served.same rfl rfl rfl
  poll _ _ served := served.poll
  fault _ _ served := served.same rfl rfl rfl

theorem poll_hears {w : World σ} {f : RxFrame} {rest : List (Option RxFrame)}
    (awaiting : Awaiting w) (taken : w.inbox = some f :: rest) (hears : Hears f) :
    (udpService w).rxGot = true ∧ stashedReply (udpService w) = stash (datagram f) := by
  obtain ⟨shape, broadcast, server⟩ := hears
  let arrived : World σ := { w with inbox := rest, trace := w.trace ++ [.frame f] }
  have ours : AddressedTo arrived.myIp (ipDst f) := .inr (.inl broadcast)
  have chosen : chosenCallback arrived (ipDst f) = some .dhcp := by
    have choice := Awaiting.chosen (w := arrived) ⟨awaiting.myIp, awaiting.rxCallback⟩ (ipDst f)
    rwa [if_pos broadcast] at choice
  have ran : udpService w = dhcpRxCallback
      (World.log { arrived with lastSrcMac := srcMac f } (.callback .dhcp (datagram f)))
      (datagram f) := by
    have dispatched : udpService w = processFrame f arrived := by
      simp only [udpService, taken, arrived]
    rw [dispatched, processFrame_udp shape ours, chosen]
    rfl
  rw [ran]
  exact dhcpRxCallback_stashes _ server

theorem poll_passes {w : World σ} {f : RxFrame} {rest : List (Option RxFrame)}
    (awaiting : Awaiting w) (taken : w.inbox = some f :: rest) (other : ¬ Hears f) :
    (udpService w).rxGot = w.rxGot := by
  have handled := processFrame_handled f { w with inbox := rest, trace := w.trace ++ [.frame f] }
  have dispatched : udpService w =
      processFrame f { w with inbox := rest, trace := w.trace ++ [.frame f] } := by
    simp only [udpService, taken]
  rw [dispatched]
  generalize processFrame f { w with inbox := rest, trace := w.trace ++ [.frame f] } = w' at handled
  cases handled with
  | delivered target shape chosen =>
    have choice : chosenCallback w (ipDst f) = some target := chosen
    rw [awaiting.chosen] at choice
    split at choice
    next broadcast =>
      obtain rfl : target = .dhcp := by simpa using choice.symm
      have ignored : ¬ FromServer (datagram f) := fun server => other ⟨shape, broadcast, server⟩
      simp only [invoke, dhcpRxCallback_ignores _ ignored, World.log]
    · cases choice
  | _ => rfl

/-! ## A wait -/

/-- The board after a wait for a reply, against the frames the client saw. -/
structure Waited (reply : Option RxFrame) (rest : List (Option RxFrame)) (ended : Bool × World σ) :
    Prop where
  got : ended.1 = reply.isSome
  inbox : ended.2.inbox = rest
  stashed : ∀ f ∈ reply, stashedReply ended.2 = stash (datagram f)

theorem awaitReply_waited (left : Nat) {w : World σ} (awaiting : Awaiting w)
    (clear : w.rxGot = false) :
    Waited (firstReply left w.inbox).1 (firstReply left w.inbox).2 (awaitReply left w) := by
  induction left generalizing w with
  | zero => exact ⟨rfl, rfl, by simp [firstReply]⟩
  | succ left ih =>
    have later := udpService_inbox w
    unfold awaitReply
    dsimp only
    -- one case for each thing a poll can find, as in `firstReply`
    cases taken : w.inbox with
    | nil =>
      have idle : udpService w = w := by simp only [udpService, taken]
      have again := ih awaiting clear
      have nothing : firstReply left w.inbox = (none, []) := by
        rw [taken]
        cases left <;> rfl
      rw [nothing] at again
      rw [idle, if_neg (by simp [clear])]
      exact again
    | cons head rest =>
      rw [taken, List.tail_cons] at later
      cases head with
      | none =>
        have idle : (udpService w).rxGot = false := by simp only [udpService, taken, clear]
        rw [if_neg (by simp [idle]), firstReply, ← later]
        exact ih awaiting.service idle
      | some f =>
        rw [firstReply]
        by_cases hears : Hears f
        · obtain ⟨got, stashed⟩ := poll_hears awaiting taken hears
          rw [if_pos got, if_pos hears]
          refine ⟨rfl, later, ?_⟩
          rintro _ ⟨⟩
          exact stashed
        · have passed := (poll_passes awaiting taken hears).trans clear
          rw [if_neg hears, if_neg (by simp [passed]), ← later]
          exact ih awaiting.service passed

/-- The peer is set, so the message leaves and the wait begins. -/
theorem exchange_waited {w : World σ} (listening : Listening Served w) {message : List UInt8}
    (fits : message.length ≤ maxPayload) :
    Waited (firstReply dhcpReplyTimeoutLoops w.inbox).1
      (firstReply dhcpReplyTimeoutLoops w.inbox).2 (exchange w message) := by
  have peer : ToBroadcast (udpSetIp w 0) := listening.1.peer.same rfl rfl
  obtain ⟨w', frame, sent, -, -⟩ := sentAsBroadcast peer fits
  have inbox : w'.inbox = w.inbox := by
    have kept := sendDhcp_inbox (udpSetIp w 0) message
    rw [sent] at kept
    exact kept
  have callback : w'.rxCallback = some .dhcp := by
    have kept := (sendDhcp_passive (udpSetIp w 0) message).rxCallback
    rw [sent] at kept
    exact kept.trans listening.2
  have waited := awaitReply_waited dhcpReplyTimeoutLoops
    (w := { udpSetIp w' limitedBroadcast with rxGot := false }) ⟨rfl, callback⟩ rfl
  unfold exchange
  simp only [sent]
  rw [← inbox]
  exact waited

/-! ## An attempt -/

theorem parsed_read (w : World σ) (result : Except Fault (Option Reply)) :
    (parsed w result).1 = readReply result ∧ (parsed w result).2.inbox = w.inbox := by
  cases result with
  | ok reply => exact ⟨rfl, rfl⟩
  | error fault => exact ⟨rfl, rfl⟩

theorem requestLease_refines {w : World σ} (listening : Listening Served w) (xid : UInt32)
    (offer : Reply) :
    (requestLease w xid offer).1 = (firstReply dhcpReplyTimeoutLoops w.inbox).1.bind
        (fun g => (ackIn xid g).bind (granted offer)) ∧
      (requestLease w xid offer).2.inbox = (firstReply dhcpReplyTimeoutLoops w.inbox).2 := by
  have waited := exchange_waited listening
    (dhcpBuildRequest_fits chaddrEtherbone xid offer.ip offer.server)
  generalize firstReply dhcpReplyTimeoutLoops w.inbox = heard at waited ⊢
  obtain ⟨reply, rest⟩ := heard
  unfold requestLease
  split
  next w' ended =>
    rw [ended] at waited
    obtain rfl : reply = none := by simpa using waited.got
    exact ⟨rfl, waited.inbox⟩
  next w' ended =>
    rw [ended] at waited
    obtain ⟨g, rfl⟩ : ∃ g, reply = some g := Option.isSome_iff_exists.mp waited.got.symm
    obtain ⟨read, kept⟩ := parsed_read w' (dhcpParseAck (stashedReply w') xid)
    rw [waited.inbox] at kept
    rw [waited.stashed g rfl] at read kept
    rw [waited.stashed g rfl]
    split
    next w'' failed =>
      rw [failed] at read kept
      exact ⟨by simp [ackIn, ← read], kept⟩
    next ack w'' found =>
      rw [found] at read kept
      have acked : ackIn xid g = some ack := read.symm
      split
      next differs => exact ⟨by simp [acked, granted, differs], kept⟩
      next same => exact ⟨by simp [acked, granted, same], kept⟩

/-- One attempt of the board is one attempt of the client. -/
theorem dhcpAttempt_refines {w : World σ} (listening : Listening Served w) :
    ((dhcpAttempt w).1, view (dhcpAttempt w).2) = (view w).attempt := by
  have drawn := dhcpAttempt_xid w
  have fresh : Listening Served { w with xid := nextXid w.xid } :=
    ⟨listening.1.same rfl rfl rfl, listening.2⟩
  have waited := exchange_waited fresh (dhcpBuildDiscover_fits chaddrEtherbone (nextXid w.xid))
  have kept := exchange_preserves served_acquiring
    (dhcpBuildDiscover chaddrEtherbone (nextXid w.xid)) fresh
  -- the transaction id is known, so only the lease and the frames left are compared
  suffices (dhcpAttempt w).1 = (view w).attempt.1 ∧
      (dhcpAttempt w).2.inbox = (view w).attempt.2.inbox ∧ (view w).attempt.2.xid = nextXid w.xid by
    obtain ⟨lease, inbox, xid⟩ := this
    refine Prod.ext lease ?_
    simp only [view, drawn, inbox, ← xid]
  unfold dhcpAttempt Client.attempt
  simp only [view]
  generalize firstReply dhcpReplyTimeoutLoops w.inbox = heard at waited ⊢
  obtain ⟨reply, rest⟩ := heard
  split
  next w' ended =>
    rw [ended] at waited
    obtain rfl : reply = none := by simpa using waited.got
    exact ⟨rfl, waited.inbox, rfl⟩
  next w' ended =>
    rw [ended] at waited kept
    obtain ⟨f, rfl⟩ : ∃ f, reply = some f := Option.isSome_iff_exists.mp waited.got.symm
    obtain ⟨read, left⟩ := parsed_read w' (dhcpParseOffer (stashedReply w') (nextXid w.xid))
    have still := parsed_preserves served_acquiring
      (dhcpParseOffer (stashedReply w') (nextXid w.xid)) kept
    rw [waited.inbox] at left
    rw [waited.stashed f rfl] at read left still
    rw [waited.stashed f rfl]
    split
    next w'' failed =>
      rw [failed] at read left
      have refused : offerIn (nextXid w.xid) f = none := read.symm
      simp only [refused]
      exact ⟨trivial, left, trivial⟩
    next offer w'' found =>
      rw [found] at read left still
      have offered : offerIn (nextXid w.xid) f = some offer := read.symm
      obtain ⟨lease, inbox⟩ := requestLease_refines still (nextXid w.xid) offer
      dsimp only at left
      rw [left] at lease inbox
      simp only [offered]
      rw [lease, inbox]
      generalize firstReply dhcpReplyTimeoutLoops rest = answer
      obtain ⟨answer, rest⟩ := answer
      cases answer <;> exact ⟨rfl, rfl, rfl⟩

/-! ## The acquisition -/

theorem dhcpTries_refines (left : Nat) {w : World σ} (listening : Listening Served w) :
    ((dhcpTries left w).1, view (dhcpTries left w).2) = (view w).attempts left := by
  induction left generalizing w with
  | zero => rfl
  | succ left ih =>
    have refines := dhcpAttempt_refines listening
    have kept := dhcpAttempt_preserves served_acquiring listening
    unfold dhcpTries Client.attempts
    rw [← refines]
    split
    next lease w' ended => simp only [ended, view, udpSetCallback]
    next w' ended =>
      rw [ended] at kept
      rw [ih kept]
      simp only [ended]

/-- The lease of an acquisition, the frames it takes and the transaction ids it draws are
those of the client, whatever else is on the board. -/
theorem acquire_refines_client (patience : Nat) (w : World σ) (served : Served w) :
    ((acquire patience w).1, view (acquire patience w).2) =
      (view w).attempts (dhcpMaxTries * patience) := by
  induction patience generalizing w with
  | zero => rfl
  | succ patience ih =>
    have callback := served_acquiring.setCallback w (some .dhcp) (by simp) served
    have ran : ((dhcpRun w).1, view (dhcpRun w).2) = (view w).attempts dhcpMaxTries :=
      dhcpTries_refines dhcpMaxTries ⟨callback, rfl⟩
    have kept : Served (dhcpRun w).2 := dhcpTries_preserves served_acquiring dhcpMaxTries
      ⟨callback, rfl⟩
    rw [Nat.mul_succ, Nat.add_comm (dhcpMaxTries * patience), Client.attempts_add, ← ran]
    unfold acquire
    split
    next lease w' ended => simp only [ended]
    next w' ended =>
      rw [ended] at kept
      rw [ih w' kept]
      simp only [ended]

/-! ## Silence, then an answer -/

def Quiet (inbox : List (Option RxFrame)) : Prop := ∀ f, some f ∈ inbox → ¬ Hears f

theorem quiet_replicate (polls : Nat) : Quiet (List.replicate polls none) := by
  intro f member
  cases List.eq_of_mem_replicate member

theorem firstReply_quiet {before : List (Option RxFrame)} (quiet : Quiet before) (polls : Nat)
    (rest : List (Option RxFrame)) : firstReply polls (before ++ rest) =
      if polls ≤ before.length then (none, before.drop polls ++ rest)
      else firstReply (polls - before.length) rest := by
  induction before generalizing polls with
  | nil =>
    cases polls with
    | zero => rfl
    | succ polls => simp
  | cons head before ih =>
    cases polls with
    | zero => rfl
    | succ polls =>
      have passed : firstReply (polls + 1) (head :: before ++ rest) =
          firstReply polls (before ++ rest) := by
        cases head with
        | none => rfl
        | some f =>
          rw [List.cons_append, firstReply, if_neg (quiet f (by simp))]
      rw [passed, ih fun f member => quiet f (by simp [member])]
      simp

/-- A reply within the window is the one that ends the wait. -/
theorem firstReply_prompt {before : List (Option RxFrame)} {f : RxFrame} {polls : Nat}
    (quiet : Quiet before) (prompt : before.length < polls) (hears : Hears f)
    (rest : List (Option RxFrame)) :
    firstReply polls (before ++ some f :: rest) = (some f, rest) := by
  obtain ⟨left, more⟩ : ∃ left, polls - before.length = left + 1 :=
    ⟨polls - before.length - 1, by omega⟩
  rw [firstReply_quiet quiet, if_neg (by omega), more, firstReply, if_pos hears]

/-- The replies of one transaction, with what is heard between them. -/
structure Grants (xid : UInt32) (lease : Lease) (f : RxFrame) (between : List (Option RxFrame))
    (g : RxFrame) : Prop where
  hearsOffer : Hears f
  hearsAck : Hears g
  quiet : Quiet between
  prompt : between.length < dhcpReplyTimeoutLoops
  agreed : ∃ offer ack, offerIn xid f = some offer ∧ ackIn xid g = some ack ∧
    granted offer ack = some lease

theorem Grants.attempt {xid : UInt32} {lease : Lease} {f g : RxFrame}
    {before between : List (Option RxFrame)} (grants : Grants (nextXid xid) lease f between g)
    (quiet : Quiet before) (prompt : before.length < dhcpReplyTimeoutLoops)
    (rest : List (Option RxFrame)) :
    Client.attempt ⟨xid, before ++ some f :: (between ++ some g :: rest)⟩ =
      (some lease, ⟨nextXid xid, rest⟩) := by
  obtain ⟨offer, ack, offered, acked, agreed⟩ := grants.agreed
  unfold Client.attempt
  simp only [firstReply_prompt quiet prompt grants.hearsOffer, offered,
    firstReply_prompt grants.quiet grants.prompt grants.hearsAck, acked, Option.bind_some, agreed]

/-- A window without a reply ends the attempt at its last poll. -/
theorem attempt_silent {xid : UInt32} {before : List (Option RxFrame)} (quiet : Quiet before)
    (long : dhcpReplyTimeoutLoops ≤ before.length) (rest : List (Option RxFrame)) :
    Client.attempt ⟨xid, before ++ rest⟩ =
      (none, ⟨nextXid xid, before.drop dhcpReplyTimeoutLoops ++ rest⟩) := by
  unfold Client.attempt
  simp only [firstReply_quiet quiet, if_pos long]

theorem Grants.attempts {lease : Lease} {f g : RxFrame} {between : List (Option RxFrame)}
    (silent : Nat) {xid : UInt32} {before : List (Option RxFrame)}
    (length : before.length / dhcpReplyTimeoutLoops = silent)
    (grants : Grants (nextXid^[silent + 1] xid) lease f between g) (quiet : Quiet before)
    (rest : List (Option RxFrame)) {tries : Nat} (enough : silent < tries) :
    Client.attempts tries ⟨xid, before ++ some f :: (between ++ some g :: rest)⟩ =
      (some lease, ⟨nextXid^[silent + 1] xid, rest⟩) := by
  have window : 0 < dhcpReplyTimeoutLoops := by decide
  obtain ⟨left, rfl⟩ : ∃ left, tries = left + 1 := ⟨tries - 1, by omega⟩
  rw [Client.attempts]
  induction silent generalizing xid before left with
  | zero =>
    have prompt : before.length < dhcpReplyTimeoutLoops := (Nat.div_eq_zero_iff_lt window).mp length
    have next : Grants (nextXid xid) lease f between g := grants
    rw [next.attempt quiet prompt]
    rfl
  | succ silent ih =>
    -- a whole window passes, and the next attempt draws the next id
    have long : dhcpReplyTimeoutLoops ≤ before.length := by
      by_contra short
      rw [Nat.div_eq_of_lt (Nat.not_le.mp short)] at length
      omega
    obtain ⟨later, rfl⟩ : ∃ later, left = later + 1 := ⟨left - 1, by omega⟩
    rw [attempt_silent quiet long]
    simp only [Client.attempts]
    rw [Function.iterate_succ_apply] at grants ⊢
    have shorter : (before.length - dhcpReplyTimeoutLoops) / dhcpReplyTimeoutLoops = silent := by
      have rest := Nat.div_eq_sub_div window long
      omega
    refine ih ?_ grants (fun f member => quiet f (List.mem_of_mem_drop member)) later (by omega)
    rw [List.length_drop, shorter]

/-- However long the network is silent, the first offer and acknowledgement of the
transaction then running give the lease, and the board takes no frame after them. -/
theorem lease_after_silence (w : World σ) (served : Served w) (lease : Lease) (f g : RxFrame)
    (before between rest : List (Option RxFrame))
    (arrives : w.inbox = before ++ some f :: (between ++ some g :: rest)) (quiet : Quiet before)
    (grants : Grants (nextXid^[before.length / dhcpReplyTimeoutLoops + 1] w.xid) lease f between g)
    (patience : Nat) (patient : before.length / dhcpReplyTimeoutLoops < dhcpMaxTries * patience) :
    (acquire patience w).1 = some lease ∧ (acquire patience w).2.inbox = rest ∧
      (acquire patience w).2.xid = nextXid^[before.length / dhcpReplyTimeoutLoops + 1] w.xid := by
  have refines := acquire_refines_client patience w served
  have answered := Grants.attempts _ rfl grants quiet rest patient
  rw [← arrives, show (⟨w.xid, w.inbox⟩ : Client) = view w from rfl, ← refines] at answered
  obtain ⟨leased, viewed⟩ := Prod.mk.inj answered
  exact ⟨leased, congrArg Client.inbox viewed, congrArg Client.xid viewed⟩

/-- A reply of the second transaction. -/
def lateReply (msgType : UInt8) : RxFrame :=
  frameTo limitedBroadcast 67 68
    (replyTo chaddrEtherbone (nextXid (nextXid 0x8008a5a5)) msgType)

/-- More than one window passes before the replies come. -/
def lateReplies : World Unit :=
  { repliesTo chaddrEtherbone with
    inbox := List.replicate 200001 none ++
      some (lateReply dhcpMsgOffer) :: ([none] ++ some (lateReply dhcpMsgAck) :: []) }

theorem lateReply_grants : Grants (nextXid (nextXid 0x8008a5a5)) ⟨0xc0a80132, 3660⟩
    (lateReply dhcpMsgOffer) [none] (lateReply dhcpMsgAck) where
  hearsOffer := by decide +kernel
  hearsAck := by decide +kernel
  quiet := quiet_replicate 1
  prompt := by decide
  agreed := ⟨⟨0xc0a80132, 0xc0a80102, 3660⟩, ⟨0xc0a80132, 0xc0a80102, 3660⟩, by decide +kernel,
    by decide +kernel, by decide⟩

theorem lateReplies_served : Served lateReplies := by
  have notArp : ∀ msgType ∈ [dhcpMsgOffer, dhcpMsgAck],
      ethertype (lateReply msgType) ≠ ethertypeArp := by decide +kernel
  refine ⟨⟨rfl, rfl⟩, fun f member spoof => ?_⟩
  have late : f = lateReply dhcpMsgOffer ∨ f = lateReply dhcpMsgAck := by
    rcases List.mem_append.mp member with waited | late
    · cases List.eq_of_mem_replicate waited
    · simpa using late
  rcases late with rfl | rfl
  · exact notArp _ (by simp) spoof.toArpReplyFrom.ethertype
  · exact notArp _ (by simp) spoof.toArpReplyFrom.ethertype

theorem lease_after_silent_window : (acquire 1 lateReplies).1 = some ⟨0xc0a80132, 3660⟩ ∧
    (acquire 1 lateReplies).2.inbox = [] := by
  have windows : (List.replicate 200001 (none : Option RxFrame)).length /
      dhcpReplyTimeoutLoops = 1 := by
    rw [List.length_replicate]
    decide
  have leased := lease_after_silence lateReplies lateReplies_served ⟨0xc0a80132, 3660⟩
    (lateReply dhcpMsgOffer) (lateReply dhcpMsgAck) (List.replicate 200001 none) [none] [] rfl
    (quiet_replicate _) (by rw [windows]; exact lateReply_grants) 1 (by rw [windows]; decide)
  exact ⟨leased.1, leased.2.1⟩

end Remote8008.Guarantees.LeaseClient
