import Mathlib.Data.List.Forall2
import Remote8008.Guarantees.LeaseClient
import Remote8008.Guarantees.UnleasedSilence

/-!
# The serve phase as a server of its requests

firmware/main.c:310-326 with firmware/eb_serve.c:33-75 and firmware/udp.c:307-395,563-784.
In the inner loop every poll is followed by `eb_serve_pending`, so every request is
answered before the next can arrive. The window in which `udp_arp_refresh` waits for the
gateway polls without serving: of the requests that arrive in it only the first is kept.
The phase then behaves as a server with neither slot, filter nor transmit buffers, on
requests that the frames alone determine.
-/

namespace Remote8008.Guarantees.ServePhase
open Lib.Memory Lib.BigEndian Source.Firmware Source.UdpTransmit Source.EbServe Source.UdpReceive
open Source.Main Source.Eb8008 FirmwareEffects FrameDispatch FrameFields TransmitFrame
open RequestServer UnleasedSilence LeaseClient

variable {σ : Type} {ip : UInt32}

/-! ## The server -/

instance (data : List UInt8) : Decidable (Acceptable data) :=
  inferInstanceAs (Decidable (¬ (data.length ≥ 2 ∧ (data[0]? ≠ some ebMagic0 ∨
    data[1]? ≠ some ebMagic1)) ∧ data.length ≤ ebBufLen))

/-- A frame that carries a request to the board at `ip`. -/
structure IsRequest (ip : UInt32) (f : RxFrame) : Prop where
  shape : WellFormedUdp f
  addressed : AddressedTo ip (ipDst f)
  acceptable : Acceptable (datagram f).data

instance (ip : UInt32) (f : RxFrame) : Decidable (IsRequest ip f) :=
  decidable_of_iff (WellFormedUdp f ∧ AddressedTo ip (ipDst f) ∧ Acceptable (datagram f).data)
    ⟨fun ⟨a, b, c⟩ => ⟨a, b, c⟩, fun ⟨a, b, c⟩ => ⟨a, b, c⟩⟩

/-- The requests among the frames found by polls. -/
def arrivals (ip : UInt32) : List (Option RxFrame) → List Request
  | [] => []
  | none :: rest => arrivals ip rest
  | some f :: rest => if IsRequest ip f then requestOf f :: arrivals ip rest else arrivals ip rest

structure Exchange where
  request : Request
  accesses : List Access
  reply : List UInt8

/-- Each request on the bus as the one before left it. The handler never fails. -/
def serveAll (bus : Bus σ) : σ → List Request → σ × List Exchange
  | s, [] => (s, [])
  | s, r :: rest =>
    match eb8008Handle bus r.data s with
    | .error _ => serveAll bus s rest
    | .ok x =>
      let (after, later) := serveAll bus x.bus rest
      (after, ⟨r, x.accesses, x.reply⟩ :: later)

theorem serveAll_append (bus : Bus σ) (s : σ) (first second : List Request) :
    serveAll bus s (first ++ second) =
      ((serveAll bus (serveAll bus s first).1 second).1,
        (serveAll bus s first).2 ++ (serveAll bus (serveAll bus s first).1 second).2) := by
  induction first generalizing s with
  | nil => rfl
  | cons r rest ih =>
    rw [List.cons_append, serveAll, serveAll]
    cases eb8008Handle bus r.data s with
    | error fault => exact ih s
    | ok x => simp only [ih, List.cons_append]

/-- An exchange whose answer can be sent. -/
def Exchange.Answered (e : Exchange) : Prop := e.reply ≠ [] ∧ e.request.srcMac ≠ Mac.zero

instance (e : Exchange) : Decidable e.Answered :=
  inferInstanceAs (Decidable (e.reply ≠ [] ∧ e.request.srcMac ≠ Mac.zero))

/-! ## What is seen of it -/

def exchanges (trace : List Obs) : List (List UInt8 × List Access × List UInt8) :=
  trace.filterMap fun
    | .handle data accesses reply => some (data, accesses, reply)
    | _ => none

def IsUdp (frame : List UInt8) : Prop :=
  field frame 12 2 = be16 ethertypeIp ∧ field frame 23 1 = [ipProtoUdp]

instance (frame : List UInt8) : Decidable (IsUdp frame) :=
  inferInstanceAs (Decidable (field frame 12 2 = be16 ethertypeIp ∧
    field frame 23 1 = [ipProtoUdp]))

def udpFrames (trace : List Obs) : List (List UInt8) := (transmitted trace).filter (IsUdp ·)

/-- From the board with hardware address `mac`, to the sender of the request. -/
def Answers (mac : Mac) (ip : UInt32) (e : Exchange) (frame : List UInt8) : Prop :=
  CarriesUdp frame e.request.srcMac mac ip e.request.srcIp e.request.dstPort e.request.srcPort
    e.reply

/-- The board goes from bus `s` to bus `s'` and shows `seen` as the server does on
`requests`. -/
structure Behaves (bus : Bus σ) (mac : Mac) (ip : UInt32) (s : σ) (requests : List Request)
    (s' : σ) (seen : List Obs) : Prop where
  moves : s' = (serveAll bus s requests).1
  accepts : accepted seen = requests
  handles : exchanges seen =
    (serveAll bus s requests).2.map fun e => (e.request.data, e.accesses, e.reply)
  sends : List.Forall₂ (Answers mac ip) ((serveAll bus s requests).2.filter (·.Answered))
    (udpFrames seen)

section
variable {bus : Bus σ} {mac : Mac} {s s' s'' : σ} {seen seen' : List Obs}

theorem Behaves.append {first second : List Request}
    (one : Behaves bus mac ip s first s' seen) (two : Behaves bus mac ip s' second s'' seen') :
    Behaves bus mac ip s (first ++ second) s'' (seen ++ seen') := by
  have between := one.moves
  subst between
  constructor
  · rw [serveAll_append, two.moves]
  · rw [accepted, List.filterMap_append]
    exact congrArg₂ _ one.accepts two.accepts
  · rw [exchanges, List.filterMap_append, serveAll_append, List.map_append]
    exact congrArg₂ _ one.handles two.handles
  · rw [serveAll_append, udpFrames, transmitted, List.filterMap_append, List.filter_append,
      List.filter_append]
    exact List.rel_append one.sends two.sends

end

theorem isUdp_of_carries {frame payload : List UInt8} {destmac srcmac : Mac}
    {srcIp dstIp : UInt32} {srcPort dstPort : UInt16}
    (carries : CarriesUdp frame destmac srcmac srcIp dstIp srcPort dstPort payload) :
    IsUdp frame := ⟨carries.ethertype, carries.proto⟩

theorem not_isUdp_of_speaks {frame : List UInt8} {source : UInt32}
    (speaks : SpeaksFor source frame) : ¬ IsUdp frame := by
  rintro ⟨ethertype, proto⟩
  rcases speaks with ⟨_, arp⟩ | icmp
  · exact absurd (arp.ethertype.symm.trans ethertype) (by decide)
  · exact absurd (icmp.proto.symm.trans proto) (by decide)

/-! ## A poll -/

theorem poll_accepts {w : World σ} {f : RxFrame} {rest : List (Option RxFrame)}
    (serving : Serving ip w) (free : w.ebPending = false) (taken : w.inbox = some f :: rest)
    (request : IsRequest ip f) :
    waiting (udpService w) = [requestOf f] ∧ (udpService w).trace = w.trace ++
      [.frame f, .callback .eb (datagram f), .accept (requestOf f)] := by
  let arrived : World σ := { w with inbox := rest, trace := w.trace ++ [.frame f] }
  have settings : Serving ip arrived := ⟨serving.myIp, serving.rxCallback, serving.bxCallback⟩
  have ran : udpService w = ebRxCallback
      (World.log { arrived with lastSrcMac := srcMac f } (.callback .eb (datagram f)))
      (datagram f) := by
    have dispatched : udpService w = processFrame f arrived := by
      simp only [udpService, taken, arrived]
    have ours : AddressedTo arrived.myIp (ipDst f) := by
      rw [settings.myIp]
      exact request.addressed
    rw [dispatched, processFrame_udp request.shape ours, settings.chosen request.addressed]
    rfl
  rw [ran, ebRxCallback_accepts (by exact free) request.acceptable]
  simp [waiting, arrived, World.log, requestOf, datagram]

/-- A callback is chosen only for the addresses of the board. -/
theorem chosen_serving {w : World σ} {dst : UInt32} {target : Callback} (serving : Serving ip w)
    (chosen : chosenCallback w dst = some target) : AddressedTo ip dst ∧ target = .eb := by
  have addressed : AddressedTo ip dst := by
    by_contra elsewhere
    obtain ⟨mine, limited, subnet⟩ : dst ≠ ip ∧ dst ≠ limitedBroadcast ∧ dst ≠ ip ||| 0xff := by
      simpa [AddressedTo] using elsewhere
    simp [chosenCallback, serving.myIp, mine, limited, subnet] at chosen
  rw [serving.chosen addressed] at chosen
  exact ⟨addressed, (Option.some.inj chosen).symm⟩

/-- The observations of polls: requests are accepted, but none is handled or answered. -/
structure Stashes (requests : List Request) (seen : List Obs) : Prop where
  accepts : accepted seen = requests
  handles : exchanges seen = []
  sends : udpFrames seen = []

theorem Stashes.append {first second : List Request} {seen seen' : List Obs}
    (one : Stashes first seen) (two : Stashes second seen') :
    Stashes (first ++ second) (seen ++ seen') := by
  constructor
  · rw [accepted, List.filterMap_append]
    exact congrArg₂ _ one.accepts two.accepts
  · rw [exchanges, List.filterMap_append]
    exact congrArg₂ _ one.handles two.handles
  · rw [udpFrames, transmitted, List.filterMap_append, List.filter_append]
    exact congrArg₂ _ one.sends two.sends

theorem stashes_nil : Stashes [] [] := ⟨rfl, rfl, rfl⟩

theorem stashes_frame (f : RxFrame) : Stashes [] [.frame f] := ⟨rfl, rfl, rfl⟩

theorem stashes_speaks {frame : List UInt8} {source : UInt32} (speaks : SpeaksFor source frame) :
    Stashes [] [.transmit frame] := by
  refine ⟨rfl, rfl, ?_⟩
  simp [udpFrames, transmitted, not_isUdp_of_speaks speaks]

theorem waiting_of_passive {w w' : World σ} (passive : Passive w w') : waiting w' = waiting w := by
  rw [waiting, waiting, passive.pending, passive.stash]

/-- A poll that takes no request: the slot is taken, or the frame is none. -/
theorem poll_passes {w : World σ} {f : RxFrame} {rest : List (Option RxFrame)}
    (serving : Serving ip w) (taken : w.inbox = some f :: rest)
    (other : w.ebPending = true ∨ ¬ IsRequest ip f) :
    waiting (udpService w) = waiting w ∧
      ∃ seen, (udpService w).trace = w.trace ++ seen ∧ Stashes [] seen := by
  let arrived : World σ := { w with inbox := rest, trace := w.trace ++ [.frame f] }
  have handled := processFrame_handled f arrived
  have dispatched : udpService w = processFrame f arrived := by
    simp only [udpService, taken, arrived]
  rw [dispatched]
  generalize processFrame f arrived = w' at handled
  cases handled with
  | ignored => exact ⟨rfl, _, rfl, stashes_frame f⟩
  | learned _ => exact ⟨rfl, _, rfl, stashes_frame f⟩
  | unclaimed => exact ⟨rfl, _, rfl, stashes_frame f⟩
  | answeredArp _ =>
    obtain ⟨frame, trace, carries⟩ := sendArp_frame arrived (loadMac f.raw 22) arpOpcodeReply
      (loadMac f.raw 22) (load32 f.raw 28)
    have slot : waiting (arpAnswer f arrived) = waiting arrived :=
      waiting_of_passive (sendArp_passive ..)
    refine ⟨slot, _, ?_, (stashes_frame f).append (stashes_speaks (.inl ⟨_, carries⟩))⟩
    rw [arpAnswer, trace, List.append_assoc]
  | answeredEcho request =>
    obtain ⟨frame, trace, carries⟩ := echoAnswer_frame f arrived request.totalLow
    have slot : waiting (echoAnswer f arrived) = waiting arrived :=
      waiting_of_passive ((setTxbuffer_passive arrived _).trans (sendPacket_passive _ _))
    refine ⟨slot, _, ?_, (stashes_frame f).append (stashes_speaks (.inr carries))⟩
    rw [trace, List.append_assoc]
  | delivered target shape chosen =>
    obtain ⟨addressed, rfl⟩ : AddressedTo ip (ipDst f) ∧ target = .eb :=
      chosen_serving ⟨serving.myIp, serving.rxCallback, serving.bxCallback⟩ chosen
    let called := World.log { w with
      inbox := rest
      trace := w.trace ++ [.frame f]
      lastSrcMac := srcMac f } (.callback .eb (datagram f))
    have dropped : ebRxCallback called (datagram f) = called := by
      rcases other with busy | other
      · exact ebRxCallback_busy _ busy
      · exact ebRxCallback_rejects _ fun acceptable => other ⟨shape, addressed, acceptable⟩
    change waiting (ebRxCallback called (datagram f)) = waiting w ∧
      ∃ seen, (ebRxCallback called (datagram f)).trace = w.trace ++ seen ∧ Stashes [] seen
    rw [dropped]
    exact ⟨rfl, [.frame f, .callback .eb (datagram f)], by simp [called, World.log], rfl, rfl, rfl⟩

/-! ## Polls without serving -/

theorem arrivals_append (ip : UInt32) (first second : List (Option RxFrame)) :
    arrivals ip (first ++ second) = arrivals ip first ++ arrivals ip second := by
  induction first with
  | nil => rfl
  | cons item rest ih =>
    cases item with
    | none => exact ih
    | some f =>
      rw [List.cons_append, arrivals, arrivals, ih]
      split <;> rfl

/-- What the slot takes of the requests that arrive before it is served. -/
def keptOf (ip : UInt32) (inbox : List (Option RxFrame)) : List Request :=
  (arrivals ip inbox).take 1

/-- The board `v` after `polls` polls from `w`, the slot having been free. -/
structure Polled (ip : UInt32) (polls : Nat) (w v : World σ) : Prop where
  serving : Serving ip v
  mac : v.myMac = w.myMac
  bus : v.bus = w.bus
  inbox : v.inbox = w.inbox.drop polls
  slot : waiting v = keptOf ip (w.inbox.take polls)
  shown : ∃ seen, v.trace = w.trace ++ seen ∧ Stashes (keptOf ip (w.inbox.take polls)) seen

/-- A step after which the slot holds `new` besides. -/
theorem Polled.extend {m n : Nat} {w v v' : World σ} (polled : Polled ip m w v)
    (steady : Steady v v') (inbox : v'.inbox = v.inbox.drop n) {new : List Request}
    (slot : waiting v' = waiting v ++ new)
    (kept : keptOf ip (w.inbox.take (m + n)) = keptOf ip (w.inbox.take m) ++ new)
    (shown : ∃ seen, v'.trace = v.trace ++ seen ∧ Stashes new seen) :
    Polled ip (m + n) w v' := by
  obtain ⟨before, trace, stashes⟩ := polled.shown
  obtain ⟨seen, trace', stashes'⟩ := shown
  refine ⟨polled.serving.of_steady steady, steady.myMac.trans polled.mac,
    steady.bus.trans polled.bus, ?_, ?_, before ++ seen, ?_, ?_⟩
  · rw [inbox, polled.inbox, List.drop_drop]
  · rw [slot, polled.slot, kept]
  · rw [trace', trace, List.append_assoc]
  · rw [kept]
    exact stashes.append stashes'

/-- A poll that leaves the slot alone. -/
theorem Polled.pass {polls : Nat} {w v v' : World σ} (polled : Polled ip polls w v)
    (steady : Steady v v') (inbox : v'.inbox = v.inbox.tail) (slot : waiting v' = waiting v)
    (shown : ∃ seen, v'.trace = v.trace ++ seen ∧ Stashes [] seen)
    (kept : keptOf ip (w.inbox.take (polls + 1)) = keptOf ip (w.inbox.take polls)) :
    Polled ip (polls + 1) w v' :=
  polled.extend steady (by rw [inbox, List.drop_one]) (by rw [slot, List.append_nil])
    (by rw [kept, List.append_nil]) shown

/-- A step that is no poll. -/
theorem Polled.quiet {polls : Nat} {w v v' : World σ} (polled : Polled ip polls w v)
    (steady : Steady v v') (inbox : v'.inbox = v.inbox) (slot : waiting v' = waiting v)
    (shown : ∃ seen, v'.trace = v.trace ++ seen ∧ Stashes [] seen) : Polled ip polls w v' :=
  polled.extend (n := 0) steady inbox (by rw [slot, List.append_nil]) (List.append_nil _).symm
    shown

theorem Polled.request {polls : Nat} {w v : World σ} (polled : Polled ip polls w v)
    (target : UInt32) :
    Polled ip polls w (sendArp v Mac.broadcast arpOpcodeRequest Mac.zero target) := by
  have passive := sendArp_passive v Mac.broadcast arpOpcodeRequest Mac.zero target
  obtain ⟨frame, trace, carries⟩ := sendArp_frame v Mac.broadcast arpOpcodeRequest Mac.zero target
  exact polled.quiet passive.toSteady rfl (waiting_of_passive passive)
    ⟨_, trace, stashes_speaks (.inl ⟨_, carries⟩)⟩

theorem keptOf_succ (ip : UInt32) (polls : Nat) (inbox : List (Option RxFrame)) :
    keptOf ip (inbox.take (polls + 1)) =
      (keptOf ip (inbox.take polls) ++ arrivals ip ((inbox.drop polls).take 1)).take 1 := by
  rw [keptOf, keptOf, List.take_add, arrivals_append]
  cases arrivals ip (inbox.take polls) <;> simp

theorem keptOf_full {inbox : List (Option RxFrame)} {polls : Nat}
    (full : keptOf ip (inbox.take polls) ≠ []) :
    keptOf ip (inbox.take (polls + 1)) = keptOf ip (inbox.take polls) := by
  rw [keptOf_succ]
  unfold keptOf at full ⊢
  cases found : arrivals ip (inbox.take polls) with
  | nil => simp [found] at full
  | cons first rest => simp

theorem Polled.poll {polls : Nat} {w v : World σ} (polled : Polled ip polls w v) :
    Polled ip (polls + 1) w (udpService v) := by
  have steady := udpService_steady v
  have inbox := udpService_inbox v
  have next := keptOf_succ ip polls w.inbox
  rw [← polled.inbox, ← polled.slot] at next
  have idle : arrivals ip (v.inbox.take 1) = [] →
      keptOf ip (w.inbox.take (polls + 1)) = keptOf ip (w.inbox.take polls) := by
    intro nothing
    rw [next, nothing, List.append_nil, polled.slot, keptOf, List.take_take, Nat.min_self]
  cases taken : v.inbox with
  | nil =>
    have same : udpService v = v := by simp only [udpService, taken]
    exact polled.pass steady inbox (by rw [same])
      ⟨[], by rw [same, List.append_nil], stashes_nil⟩ (idle (by rw [taken]; rfl))
  | cons item rest =>
    cases item with
    | none =>
      have empty : udpService v = { v with inbox := rest } := by simp only [udpService, taken]
      exact polled.pass steady inbox (by rw [empty]; rfl)
        ⟨[], by rw [empty, List.append_nil], stashes_nil⟩ (idle (by rw [taken]; rfl))
    | some f =>
      by_cases busy : v.ebPending = true
      · obtain ⟨slot, shown⟩ := poll_passes polled.serving taken (.inl busy)
        refine polled.pass steady inbox slot shown (keptOf_full ?_)
        rw [← polled.slot]
        simp [waiting, busy]
      · by_cases request : IsRequest ip f
        · have free : v.ebPending = false := by simpa using busy
          have empty : waiting v = [] := by simp [waiting, free]
          have found : arrivals ip (v.inbox.take 1) = [requestOf f] := by
            rw [taken, List.take_succ_cons, List.take_zero, arrivals, if_pos request, arrivals]
          obtain ⟨slot, trace⟩ := poll_accepts polled.serving free taken request
          refine polled.extend steady (by rw [inbox, List.drop_one]) (by rw [slot, empty]; rfl) ?_
            ⟨_, trace, rfl, rfl, rfl⟩
          rw [next, found, ← polled.slot, empty]
          rfl
        · obtain ⟨slot, shown⟩ := poll_passes polled.serving taken (.inr request)
          refine polled.pass steady inbox slot shown (idle ?_)
          rw [taken, List.take_succ_cons, List.take_zero, arrivals, if_neg request, arrivals]

/-! ## Serving the slot -/

theorem sendReply_inbox (w : World σ) (r : Request) (reply : List UInt8) :
    (sendReply w r reply).inbox = w.inbox := by
  unfold sendReply udpSend
  dsimp only
  split
  · rfl
  · split <;> rfl

theorem ebServePending_kept (bus : Bus σ) (w : World σ) :
    (ebServePending bus w).inbox = w.inbox ∧ (ebServePending bus w).myMac = w.myMac := by
  unfold ebServePending
  split
  · split
    · exact ⟨rfl, rfl⟩
    · dsimp only
      split
      · exact ⟨sendReply_inbox _ _ _, (sendReply_passive _ _ _).myMac⟩
      · exact ⟨rfl, rfl⟩
  · exact ⟨rfl, rfl⟩

theorem Stashes.idles {bus : Bus σ} {mac : Mac} {s : σ} {seen : List Obs}
    (stashes : Stashes [] seen) : Behaves bus mac ip s [] s seen :=
  ⟨rfl, stashes.accepts, stashes.handles, by rw [stashes.sends]; exact .nil⟩

theorem transmitted_map (frames : List (List UInt8)) :
    transmitted (frames.map .transmit) = frames := by
  induction frames with
  | nil => rfl
  | cons frame rest ih => exact congrArg (frame :: ·) ih

/-- Serving the stashed request is what the server does on it. -/
theorem Serves.behaves {bus : Bus σ} {w w' : World σ} {x : Exec σ} {sent : List (List UInt8)}
    (serves : Serves bus w w' x sent) (mine : w.myIp = ip) {seen : List Obs}
    (stashes : Stashes [w.ebStash] seen) : Behaves bus w.myMac ip w.bus [w.ebStash] w'.bus
      (seen ++ .handle w.ebStash.data x.accesses x.reply :: sent.map .transmit) := by
  have server : serveAll bus w.bus [w.ebStash] = (x.bus, [⟨w.ebStash, x.accesses, x.reply⟩]) := by
    simp only [serveAll, serves.ran]
  have quiet : accepted (sent.map .transmit) = [] ∧ exchanges (sent.map .transmit) = [] := by
    simp [accepted, exchanges]
  constructor
  · rw [server, serves.state]
  · rw [accepted, List.filterMap_append]
    exact congrArg₂ _ stashes.accepts quiet.1
  · rw [server, exchanges, List.filterMap_append]
    exact congrArg₂ _ stashes.handles
      (congrArg ((w.ebStash.data, x.accesses, x.reply) :: ·) quiet.2)
  · have shown : udpFrames (seen ++
        .handle w.ebStash.data x.accesses x.reply :: sent.map .transmit) =
          sent.filter (IsUdp ·) := by
      rw [udpFrames, transmitted, List.filterMap_append, List.filter_append]
      exact congrArg₂ _ stashes.sends (congrArg (List.filter (IsUdp ·)) (transmitted_map sent))
    rw [server, shown]
    -- a reply that cannot be sent is not sent, and one that can is sent once
    by_cases answered : Exchange.Answered ⟨w.ebStash, x.accesses, x.reply⟩
    · obtain ⟨frame, rfl, carries⟩ := serves.answers answered.1 answered.2
      rw [mine] at carries
      rw [List.filter_cons_of_pos (by simpa using answered),
        List.filter_cons_of_pos (by simpa using isUdp_of_carries carries)]
      exact .cons carries .nil
    · have silent : sent = [] := serves.silent (by
        unfold Exchange.Answered at answered
        tauto)
      rw [List.filter_cons_of_neg (by simpa using answered), silent]
      exact .nil

/-- The state between two ticks. -/
structure Ready (ip : UInt32) (w : World σ) : Prop where
  serving : Serving ip w
  free : w.ebPending = false

theorem Ready.polled {w : World σ} (ready : Ready ip w) : Polled ip 0 w w :=
  ⟨ready.serving, rfl, rfl, rfl, by simp [waiting, ready.free, keptOf, arrivals], [],
    (List.append_nil _).symm, stashes_nil⟩

/-- From `w` to `w'` the board takes `polls` polls and behaves as the server on `requests`. -/
structure Advances (bus : Bus σ) (ip : UInt32) (polls : Nat) (requests : List Request)
    (w w' : World σ) : Prop where
  ready : Ready ip w'
  mac : w'.myMac = w.myMac
  inbox : w'.inbox = w.inbox.drop polls
  behaves : ∃ seen, w'.trace = w.trace ++ seen ∧
    Behaves bus w.myMac ip w.bus requests w'.bus seen

theorem Advances.trans {bus : Bus σ} {m n : Nat} {first second : List Request}
    {w w' w'' : World σ} (one : Advances bus ip m first w w')
    (two : Advances bus ip n second w' w'') : Advances bus ip (m + n) (first ++ second) w w'' := by
  obtain ⟨seen, trace, behaves⟩ := one.behaves
  obtain ⟨seen', trace', behaves'⟩ := two.behaves
  rw [one.mac] at behaves'
  refine ⟨two.ready, two.mac.trans one.mac, ?_, seen ++ seen', ?_, behaves.append behaves'⟩
  · rw [two.inbox, one.inbox, List.drop_drop]
  · rw [trace', trace, List.append_assoc]

theorem Ready.advances {bus : Bus σ} {w : World σ} (ready : Ready ip w) :
    Advances bus ip 0 [] w w :=
  ⟨ready, rfl, rfl, [], (List.append_nil _).symm, stashes_nil.idles⟩

theorem arrivals_origin {inbox : List (Option RxFrame)} {r : Request}
    (arrived : r ∈ arrivals ip inbox) :
    ∃ f, some f ∈ inbox ∧ IsRequest ip f ∧ r = requestOf f := by
  induction inbox with
  | nil => cases arrived
  | cons item rest ih =>
    have later : r ∈ arrivals ip rest →
        ∃ f, some f ∈ item :: rest ∧ IsRequest ip f ∧ r = requestOf f := by
      intro found
      obtain ⟨f, member, origin⟩ := ih found
      exact ⟨f, List.mem_cons_of_mem _ member, origin⟩
    cases item with
    | none => exact later arrived
    | some f =>
      rw [arrivals] at arrived
      split at arrived
      next request =>
        rcases List.mem_cons.mp arrived with rfl | found
        · exact ⟨f, List.mem_cons_self, request, rfl⟩
        · exact later found
      next => exact later arrived

theorem arrivals_fit {inbox : List (Option RxFrame)} {r : Request}
    (arrived : r ∈ arrivals ip inbox) : r.data.length ≤ ebBufLen := by
  obtain ⟨f, -, request, rfl⟩ := arrivals_origin arrived
  exact request.acceptable.2

/-- `eb_serve_pending` after any number of polls. -/
theorem Polled.serve (bus : Bus σ) {polls : Nat} {w v : World σ} (polled : Polled ip polls w v) :
    Advances bus ip polls (keptOf ip (w.inbox.take polls)) w (ebServePending bus v) := by
  obtain ⟨inbox, mac⟩ := ebServePending_kept bus v
  obtain ⟨seen, trace, stashes⟩ := polled.shown
  rw [polled.inbox] at inbox
  rw [polled.mac] at mac
  have serving := ebServePending_serving bus polled.serving
  rw [← polled.slot] at stashes ⊢
  by_cases busy : v.ebPending = true
  · have slot : waiting v = [v.ebStash] := by simp [waiting, busy]
    have fits : v.ebStash.data.length ≤ ebBufLen := by
      have kept : v.ebStash ∈ keptOf ip (w.inbox.take polls) := by
        rw [← polled.slot, slot]
        exact List.mem_singleton_self _
      exact arrivals_fit (List.mem_of_mem_take kept)
    obtain ⟨x, sent, serves⟩ := ebServePending_serves bus busy fits
    rw [slot] at stashes ⊢
    have behaves := Serves.behaves serves polled.serving.myIp stashes
    rw [polled.mac, polled.bus] at behaves
    refine ⟨⟨serving, serves.emptied⟩, mac, inbox, _, ?_, behaves⟩
    rw [serves.trace, trace, List.append_assoc]
  · have free : v.ebPending = false := by simpa using busy
    have same : ebServePending bus v = v := by rw [ebServePending, if_neg busy]
    have slot : waiting v = [] := by simp [waiting, free]
    rw [slot] at stashes ⊢
    rw [same] at mac inbox serving ⊢
    refine ⟨⟨serving, free⟩, mac, inbox, seen, trace, ?_⟩
    rw [polled.bus]
    exact stashes.idles

/-! ## The inner loop -/

theorem keptOf_one (ip : UInt32) (inbox : List (Option RxFrame)) :
    keptOf ip (inbox.take 1) = arrivals ip (inbox.take 1) := by
  cases inbox with
  | nil => rfl
  | cons item rest =>
    cases item with
    | none => rfl
    | some f =>
      rw [keptOf, List.take_succ_cons, List.take_zero, arrivals, arrivals]
      split <;> rfl

theorem serveLoop_advances (bus : Bus σ) (count : Nat) {w : World σ} (ready : Ready ip w) :
    Advances bus ip count (arrivals ip (w.inbox.take count)) w (serveLoop bus count w) := by
  induction count generalizing w with
  | zero => exact ready.advances
  | succ count ih =>
    have first := ready.polled.poll.serve bus
    rw [Nat.zero_add, keptOf_one] at first
    have both := first.trans (ih first.ready)
    rw [first.inbox, ← arrivals_append, ← List.take_add, Nat.add_comm] at both
    exact both

/-- The first iteration serves what the slot holds, the others what they find. -/
theorem Polled.serveLoop (bus : Bus σ) {polls : Nat} (count : Nat) {w v : World σ}
    (polled : Polled ip polls w v) : Advances bus ip (polls + (count + 1))
      (keptOf ip (w.inbox.take (polls + 1)) ++
        arrivals ip ((w.inbox.drop (polls + 1)).take count)) w
      (serveLoop bus (count + 1) v) := by
  have first := polled.poll.serve bus
  have both := first.trans (serveLoop_advances bus count first.ready)
  rw [first.inbox] at both
  have total : polls + (count + 1) = polls + 1 + count := by omega
  rw [total]
  exact both

/-! ## The refresh window -/

/-- The ARP reply that ends a window. -/
def Resolves (target : UInt32) (f : RxFrame) : Prop :=
  ArpReplyFrom target f ∧ loadMac f.raw 22 ≠ Mac.zero

instance (target : UInt32) (f : RxFrame) : Decidable (Resolves target f) :=
  inferInstanceAs (Decidable (ArpReplyFrom target f ∧ loadMac f.raw 22 ≠ Mac.zero))

/-- Whether the reply comes within a number of polls, and the polls made. -/
def arpWait (target : UInt32) : Nat → List (Option RxFrame) → Bool × Nat
  | 0, _ => (false, 0)
  | left + 1, [] => (false, left + 1)
  | left + 1, item :: rest =>
    if item.any (Resolves target ·) then (true, 1)
    else ((arpWait target left rest).1, (arpWait target left rest).2 + 1)

theorem arpWait_nil (target : UInt32) (left : Nat) : arpWait target left [] = (false, left) := by
  cases left <;> rfl

theorem arpWait_unanswered {target : UInt32} {left : Nat} {inbox : List (Option RxFrame)}
    (unanswered : (arpWait target left inbox).1 = false) :
    (arpWait target left inbox).2 = left := by
  induction left generalizing inbox with
  | zero => rfl
  | succ left ih =>
    cases inbox with
    | nil => rfl
    | cons item rest =>
      rw [arpWait] at unanswered ⊢
      split at unanswered
      · cases unanswered
      next other =>
        rw [if_neg other]
        exact congrArg (· + 1) (ih unanswered)

/-- A wait in two parts. -/
theorem arpWait_add (target : UInt32) (m n : Nat) (inbox : List (Option RxFrame)) :
    arpWait target (m + n) inbox =
      if (arpWait target m inbox).1 then arpWait target m inbox
      else ((arpWait target n (inbox.drop m)).1, m + (arpWait target n (inbox.drop m)).2) := by
  induction m generalizing inbox with
  | zero => simp [arpWait]
  | succ m ih =>
    cases inbox with
    | nil => simp [arpWait_nil]
    | cons item rest =>
      rw [Nat.succ_add, arpWait, arpWait, List.drop_succ_cons, ih]
      by_cases hit : item.any (Resolves target ·) = true
      · simp [hit]
      · rw [if_neg hit, if_neg hit]
        split
        · rfl
        · rw [Nat.add_right_comm]

theorem invoke_cache (w : World σ) (d : Datagram) (callback : Callback) :
    (invoke w d callback).cachedIp = w.cachedIp ∧
      (invoke w d callback).cachedMac = w.cachedMac := by
  cases callback with
  | dhcp =>
    obtain ⟨_, _, _, ran⟩ := dhcpRxCallback_effect (w.log (.callback .dhcp d)) d
    simp only [invoke]
    rw [ran]
    exact ⟨rfl, rfl⟩
  | eb =>
    simp only [invoke]
    unfold ebRxCallback
    repeat (split; exact ⟨rfl, rfl⟩)
    exact ⟨rfl, rfl⟩

/-- A poll asks for the same address, and learns it from a reply alone. -/
theorem udpService_cache {v : World σ} {f : RxFrame} {rest : List (Option RxFrame)}
    (taken : v.inbox = some f :: rest) : (udpService v).cachedIp = v.cachedIp ∧
      (udpService v).cachedMac =
        if ArpReplyFrom v.cachedIp f then loadMac f.raw 22 else v.cachedMac := by
  let arrived : World σ := { v with inbox := rest, trace := v.trace ++ [.frame f] }
  have dispatched : udpService v = processFrame f arrived := by
    simp only [udpService, taken, arrived]
  rw [dispatched]
  split
  next reply =>
    rw [processFrame_learns (w := arrived) reply]
    exact ⟨rfl, rfl⟩
  next other =>
    have handled := processFrame_handled f arrived
    generalize processFrame f arrived = v' at handled
    cases handled with
    | learned reply => exact absurd reply other
    | delivered callback _ _ => exact invoke_cache _ _ callback
    | _ => exact ⟨rfl, rfl⟩

/-- A wait for `target` that began `polls` polls after `w`, and the board it ends with. -/
structure Waits (ip target : UInt32) (wait : Bool × Nat) (polls : Nat) (w : World σ)
    (ended : Bool × World σ) : Prop where
  answered : ended.1 = wait.1
  polled : Polled ip (polls + wait.2) w ended.2
  asked : ended.2.cachedIp = target
  unknown : ended.1 = false → ended.2.cachedMac = Mac.zero

theorem awaitArpReply_waits {target : UInt32} (left : Nat) {polls : Nat} {w v : World σ}
    (polled : Polled ip polls w v) (asked : v.cachedIp = target)
    (unknown : v.cachedMac = Mac.zero) :
    Waits ip target (arpWait target left v.inbox) polls w (awaitArpReply left v) := by
  induction left generalizing polls v with
  | zero => exact ⟨rfl, polled, asked, fun _ => unknown⟩
  | succ left ih =>
    -- the cache is still empty after a poll without the reply, and the wait goes on
    have goesOn : (udpService v).cachedIp = target → (udpService v).cachedMac = Mac.zero →
        arpWait target (left + 1) v.inbox = ((arpWait target left v.inbox.tail).1,
          (arpWait target left v.inbox.tail).2 + 1) →
        Waits ip target (arpWait target (left + 1) v.inbox) polls w
          (awaitArpReply (left + 1) v) := by
      intro asked unknown wait
      have rest := ih polled.poll asked unknown
      have ran : awaitArpReply (left + 1) v = awaitArpReply left (udpService v) := by
        rw [awaitArpReply]
        exact if_neg (by simp [unknown])
      rw [udpService_inbox] at rest
      rw [ran, wait]
      refine ⟨rest.answered, ?_, rest.asked, rest.unknown⟩
      rw [Nat.add_comm _ 1, ← Nat.add_assoc]
      exact rest.polled
    cases taken : v.inbox with
    | nil =>
      have same : udpService v = v := by simp only [udpService, taken]
      rw [taken] at goesOn
      refine goesOn (by rw [same, asked]) (by rw [same, unknown]) ?_
      rw [List.tail_nil, arpWait_nil, arpWait_nil]
    | cons item rest =>
      rw [taken] at goesOn
      cases item with
      | none =>
        have empty : udpService v = { v with inbox := rest } := by simp only [udpService, taken]
        exact goesOn (by rw [empty, asked]) (by rw [empty, unknown]) rfl
      | some f =>
        obtain ⟨same, learned⟩ := udpService_cache taken
        rw [asked] at same learned
        by_cases resolves : Resolves target f
        · rw [if_pos resolves.1] at learned
          have ran : awaitArpReply (left + 1) v = (true, udpService v) := by
            rw [awaitArpReply]
            exact if_pos (by simp [learned, resolves.2])
          have wait : arpWait target (left + 1) (some f :: rest) = (true, 1) := by
            simp [arpWait, resolves]
          rw [ran, wait]
          exact ⟨rfl, polled.poll, same, fun none => by cases none⟩
        · refine goesOn same ?_ (by simp [arpWait, resolves])
          rw [learned, unknown]
          -- a reply with the zero address does not resolve anything
          split
          next reply =>
            by_contra known
            exact resolves ⟨reply, known⟩
          · rfl

theorem arpTries_waits {target : UInt32} (left : Nat) {polls : Nat} {w v : World σ}
    (polled : Polled ip polls w v) (asked : v.cachedIp = target)
    (unknown : v.cachedMac = Mac.zero) :
    Waits ip target (arpWait target (left * 100000) v.inbox) polls w (arpTries target left v) := by
  induction left generalizing polls v with
  | zero =>
    rw [Nat.zero_mul]
    exact ⟨rfl, polled, asked, fun _ => unknown⟩
  | succ left ih =>
    have waited := awaitArpReply_waits 100000 (polled.request target) asked unknown
    have inbox : (sendArp v Mac.broadcast arpOpcodeRequest Mac.zero target).inbox = v.inbox := rfl
    rw [inbox] at waited
    rw [Nat.succ_mul, Nat.add_comm, arpWait_add, arpTries]
    generalize awaitArpReply 100000 (sendArp v Mac.broadcast arpOpcodeRequest Mac.zero target) =
      ended at waited
    obtain ⟨answered, w'⟩ := ended
    cases answered with
    | true =>
      rw [if_pos waited.answered.symm]
      exact waited
    | false =>
      have unanswered : (arpWait target 100000 v.inbox).1 = false := waited.answered.symm
      have polled' : Polled ip (polls + 100000) w w' := by
        have polled' := waited.polled
        rwa [arpWait_unanswered unanswered] at polled'
      have rest := ih polled' waited.asked (waited.unknown rfl)
      rw [polled'.inbox, ← List.drop_drop, ← polled.inbox] at rest
      rw [if_neg (by simp [unanswered])]
      refine ⟨rest.answered, ?_, rest.asked, rest.unknown⟩
      rw [← Nat.add_assoc]
      exact rest.polled

theorem gateway_ne_zero (ip : UInt32) : gateway ip ≠ 0 := by
  intro zero
  have lowest := congrArg (fun v : UInt32 => v.toNat.testBit 0) zero
  simp [gateway] at lowest

/-- The polls of `udp_arp_refresh`. -/
def refreshPolls (ip : UInt32) (inbox : List (Option RxFrame)) : Nat :=
  (arpWait (gateway ip) 800000 inbox).2

theorem udpArpRefresh_polled {polls : Nat} {w v : World σ} (polled : Polled ip polls w v) :
    Polled ip (polls + refreshPolls ip v.inbox) w (udpArpRefresh (gateway ip) v).2 := by
  have reset : Polled ip polls w { v with cachedIp := gateway ip, cachedMac := Mac.zero } :=
    polled.quiet ⟨rfl, rfl, rfl, rfl, rfl⟩ rfl rfl ⟨[], (List.append_nil _).symm, stashes_nil⟩
  have waited := arpTries_waits 8 reset rfl rfl
  have unresolved : ¬ ((0 : UInt32) = gateway ip ∧ v.cachedMac ≠ Mac.zero) :=
    fun resolved => gateway_ne_zero ip resolved.1.symm
  have ran : udpArpRefresh (gateway ip) v =
      arpTries (gateway ip) 8 { v with cachedIp := gateway ip, cachedMac := Mac.zero } :=
    if_neg unresolved
  rw [ran]
  exact waited.polled

/-! ## Ticks -/

/-- The polls of tick `s` before its inner loop. -/
def windowPolls (ip : UInt32) (s : Nat) (inbox : List (Option RxFrame)) : Nat :=
  if s % 10 = 1 then refreshPolls ip inbox else 0

/-- Of the window and the poll after it only the first request is kept; of the other
polls every one. -/
def tickRequests (ip : UInt32) (s : Nat) (inbox : List (Option RxFrame)) : List Request :=
  let unserved := windowPolls ip s inbox + 1
  keptOf ip (inbox.take unserved) ++
    arrivals ip ((inbox.drop unserved).take (ebServeLoopsPerSec - 1))

/-- The polls of some ticks and the requests they keep. -/
def phase (ip : UInt32) : List Nat → List (Option RxFrame) → Nat × List Request
  | [], _ => (0, [])
  | s :: ticks, inbox =>
    let polls := windowPolls ip s inbox + ebServeLoopsPerSec
    let later := phase ip ticks (inbox.drop polls)
    (polls + later.1, tickRequests ip s inbox ++ later.2)

theorem announce_polled {polls : Nat} {w v : World σ} (polled : Polled ip polls w v) :
    Polled ip polls w (udpAnnounceArp v) := by
  unfold udpAnnounceArp
  split
  · exact polled
  · exact polled.request v.myIp

theorem serveTick_advances (bus : Bus σ) (s : Nat) {w : World σ} (ready : Ready ip w) :
    Advances bus ip (windowPolls ip s w.inbox + ebServeLoopsPerSec) (tickRequests ip s w.inbox) w
      (serveTick bus ip s w) := by
  have announced : Polled ip 0 w (if s % 30 = 0 then udpAnnounceArp w else w) := by
    split
    · exact announce_polled ready.polled
    · exact ready.polled
  have refreshed : ∀ v, Polled ip 0 w v → Polled ip (windowPolls ip s w.inbox) w
      (if s % 10 = 1 then (udpArpRefresh (gateway ip) v).2 else v) := by
    intro v polled
    have inbox : v.inbox = w.inbox := polled.inbox
    unfold windowPolls
    split
    · have window := udpArpRefresh_polled polled
      rwa [Nat.zero_add, inbox] at window
    · exact polled
  have served := (refreshed _ announced).serveLoop bus (ebServeLoopsPerSec - 1)
  rwa [Nat.sub_add_cancel (show 1 ≤ ebServeLoopsPerSec by decide)] at served

theorem serveTicks_advances (bus : Bus σ) (ticks : List Nat) {w : World σ} (ready : Ready ip w) :
    Advances bus ip (phase ip ticks w.inbox).1 (phase ip ticks w.inbox).2 w
      (Lib.Machine.run (fun w s => serveTick bus ip s w) w ticks) := by
  induction ticks generalizing w with
  | nil => exact ready.advances
  | cons s ticks ih =>
    have first := serveTick_advances bus s ready
    have rest := ih first.ready
    rw [first.inbox] at rest
    have both := first.trans rest
    rw [Lib.Machine.run_cons, phase]
    exact both

/-! ## From the lease to its half-life -/

theorem stashes_phase (p : Phase) : Stashes [] [.phase p] := ⟨rfl, rfl, rfl⟩

/-- The requests of a serve phase, with the polls it makes. -/
def served (lease : Lease) (inbox : List (Option RxFrame)) : Nat × List Request :=
  phase lease.ip (List.range (lease.secs.toNat / 2)) inbox

theorem announced_advances (bus : Bus σ) {w : World σ} (ready : Ready ip w) :
    Advances bus ip 0 [] w (udpAnnounceArp w) := by
  have polled := announce_polled ready.polled
  have advances := polled.serve bus
  have free : (udpAnnounceArp w).ebPending = false :=
    (udpAnnounceArp_passive w).pending.trans ready.free
  rwa [ebServePending, if_neg (by simp [free])] at advances

theorem serve_advances (bus : Bus σ) (lease : Lease) {w : World σ}
    (ready : Ready lease.ip w) : Advances bus lease.ip (served lease w.inbox).1
      (served lease w.inbox).2 w
      (serveTicks bus lease.ip (lease.secs.toNat / 2) (udpAnnounceArp w)) := by
  have announced := announced_advances bus ready
  have ticks := serveTicks_advances bus (List.range (lease.secs.toNat / 2)) announced.ready
  have both := announced.trans ticks
  rw [announced.inbox, List.drop_zero, Nat.zero_add, List.nil_append] at both
  exact both

theorem serve_behaves (bus : Bus σ) (lease : Lease) {w : World σ} (free : w.ebPending = false) :
    (serve bus lease w).ebPending = false ∧
      (serve bus lease w).inbox = w.inbox.drop (served lease w.inbox).1 ∧
      ∃ seen, (serve bus lease w).trace = w.trace ++ seen ∧ Behaves bus w.myMac lease.ip w.bus
        (served lease w.inbox).2 (serve bus lease w).bus seen := by
  have ready : Ready lease.ip (openServing lease.ip w) := ⟨⟨rfl, rfl, rfl⟩, free⟩
  have advances := serve_advances bus lease ready
  obtain ⟨seen, trace, behaves⟩ := advances.behaves
  -- the two phase marks around the ticks are all the server does not see
  have whole : Behaves bus w.myMac lease.ip w.bus ([] ++ (served lease w.inbox).2 ++ [])
      (serve bus lease w).bus ([.phase (.serving lease.ip)] ++ seen ++ [.phase .acquiring]) :=
    ((stashes_phase _).idles.append behaves).append (stashes_phase _).idles
  rw [List.nil_append, List.append_nil] at whole
  refine ⟨advances.ready.free, advances.inbox, _, ?_, whole⟩
  change (serveTicks bus lease.ip (lease.secs.toNat / 2)
    (udpAnnounceArp (openServing lease.ip w))).trace ++ [.phase .acquiring] = _
  rw [trace]
  simp [openServing, World.log, udpSetIp, udpSetCallback, udpSetBroadcastCallback]

end Remote8008.Guarantees.ServePhase
