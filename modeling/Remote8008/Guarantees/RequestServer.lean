import Remote8008.Lib.Machine
import Remote8008.Source.Main
import Remote8008.Guarantees.EtherboneTotal
import Remote8008.Guarantees.FrameFields

/-!
# The server answers each request once, to its own sender

firmware/eb_serve.c:22-75 with firmware/udp.c:292-394,657-703. Polls, serves, ARP
announcements and ARP refresh windows come in any order. The stash is the memory of
the protocol: it is filled together with its sender's address from one frame, nothing
but serving empties it, and serving works from the stash alone.
-/

namespace Remote8008.Guarantees.RequestServer
open Lib.Machine Lib.Memory Source.Firmware Source.UdpTransmit Source.EbServe Source.UdpReceive
open Lib.BigEndian Source.Eb8008 FirmwareEffects TransmitFrame FrameFields EtherboneTotal

variable {σ : Type}

inductive Event where
  | service
  | serve
  | announce
  | refresh (ip : UInt32)

def step (bus : Bus σ) (w : World σ) : Event → World σ
  | .service => udpService w
  | .serve => ebServePending bus w
  | .announce => udpAnnounceArp w
  | .refresh ip => (udpArpRefresh ip w).2

def framesOf (trace : List Obs) : List RxFrame :=
  trace.filterMap fun | .frame f => some f | _ => none

def accepted (trace : List Obs) : List Request :=
  trace.filterMap fun | .accept r => some r | _ => none

def handled (trace : List Obs) : List (List UInt8) :=
  trace.filterMap fun | .handle data _ _ => some data | _ => none

def faults (trace : List Obs) : List Fault :=
  trace.filterMap fun | .fault f => some f | _ => none

def waiting (w : World σ) : List Request := if w.ebPending then [w.ebStash] else []

/-- Every accepted request comes from a frame of its own, in order, fits the buffer,
and has been handled or is the one waiting. -/
structure Accounted (w : World σ) : Prop where
  origin : ∃ frames : List RxFrame, frames.Sublist (framesOf w.trace) ∧
    accepted w.trace = frames.map requestOf
  served : ∃ finished, accepted w.trace = finished ++ waiting w ∧
    handled w.trace = finished.map Request.data
  fits : ∀ r ∈ accepted w.trace, r.data.length ≤ ebBufLen
  clean : faults w.trace = []

/-- Observations that concern neither the stash nor the handler change nothing. -/
theorem Accounted.extend {w w' : World σ} (inv : Accounted w) (extra : List Obs)
    (trace : w'.trace = w.trace ++ extra) (same : waiting w' = waiting w)
    (accepts : accepted extra = []) (handles : handled extra = []) (sound : faults extra = []) :
    Accounted w' := by
  obtain ⟨frames, within, origin⟩ := inv.origin
  obtain ⟨finished, taken, done⟩ := inv.served
  have taken' : accepted w'.trace = accepted w.trace := by
    simpa [trace, accepted] using accepts
  have done' : handled w'.trace = handled w.trace := by
    simpa [trace, handled] using handles
  have faulty : faults w'.trace = faults w.trace := by
    simpa [trace, faults] using sound
  refine ⟨⟨frames, ?_, by rw [taken', origin]⟩,
    ⟨finished, by rw [taken', same, taken], by rw [done', done]⟩,
    by rw [taken']; exact inv.fits, by rw [faulty]; exact inv.clean⟩
  rw [trace, framesOf, List.filterMap_append]
  exact within.trans (List.sublist_append_left _ _)

theorem Accounted.passive {w w' : World σ} (inv : Accounted w) (effect : Passive w w') :
    Accounted w' := by
  obtain ⟨sent, trace⟩ := effect.trace
  exact inv.extend _ trace (by simp [waiting, effect.pending, effect.stash])
    (by simp [accepted]) (by simp [handled]) (by simp [faults])

theorem Accounted.service {w : World σ} (inv : Accounted w) : Accounted (udpService w) := by
  rcases udpService_cases w with quiet | ⟨f, rest, -, effect⟩
  · exact inv.passive quiet
  · cases effect with
    | passive effect =>
      obtain ⟨sent, trace⟩ := effect.trace
      exact inv.extend (.frame f :: sent.map .transmit) (by simp [trace])
        (by simp [waiting, effect.pending, effect.stash]) (by simp [accepted]) (by simp [handled])
        (by simp [faults])
    | called target shape chosen reason steady pending stash trace =>
      exact inv.extend [.frame f, .callback target (datagram f)] (by simp [trace])
        (by simp [waiting, pending, stash]) rfl rfl rfl
    | accepted shape chosen free acceptable steady pending stash trace =>
      obtain ⟨frames, within, origin⟩ := inv.origin
      obtain ⟨finished, taken, done⟩ := inv.served
      have idle : waiting w = [] := by
        have free : w.ebPending = false := free
        simp [waiting, free]
      rw [idle, List.append_nil] at taken
      have took : accepted (udpService w).trace = accepted w.trace ++ [requestOf f] := by
        simp [trace, accepted]
      refine ⟨⟨frames ++ [f], ?_, by simp [took, origin]⟩, ⟨finished, ?_, ?_⟩, ?_, ?_⟩
      · simpa [trace, framesOf] using within.append_right [f]
      · simpa [took, waiting, pending, stash] using taken
      · simpa [trace, handled] using done
      · intro r member
        rw [took] at member
        rcases List.mem_append.mp member with old | new
        · exact inv.fits r old
        · rw [List.mem_singleton.mp new]
          exact acceptable.2
      · simpa [trace, faults] using inv.clean

theorem Accounted.refresh {w : World σ} (inv : Accounted w) (ip : UInt32) :
    Accounted (udpArpRefresh ip w).2 :=
  udpArpRefresh_preserves Accounted (fun _ h => h.service)
    (fun _ _ h => h.passive (sendArp_passive ..))
    (fun v _ _ h => h.passive (link_passive v ..)) ip w inv

/-! ## Serving -/

theorem reply_length {x : Exec σ} : x.reply.length = x.respLen := by simp [Exec.reply]

/-- The one frame a reply leaves in, or none when the sender's MAC is unknown. -/
theorem sendReply_spec (w : World σ) (r : Request) {reply : List UInt8}
    (fits : reply.length ≤ maxPayload) :
    ∃ sent, (sendReply w r reply).trace = w.trace ++ sent.map .transmit ∧
      (r.srcMac = Mac.zero → sent = []) ∧
      (r.srcMac ≠ Mac.zero → ∃ frame, sent = [frame] ∧
        CarriesUdp frame r.srcMac w.myMac w.myIp r.srcIp r.dstPort r.srcPort reply) := by
  let loaded : World σ := (udpSetPeer w r.srcIp r.srcMac).setTxbuffer
    (store (udpSetPeer w r.srcIp r.srcMac).txbuffer payloadOffset reply)
  have sends : sendReply w r reply = (udpSend loaded r.dstPort r.srcPort reply.length).2 := rfl
  by_cases unknown : r.srcMac = Mac.zero
  · refine ⟨[], ?_, fun _ => rfl, fun known => absurd unknown known⟩
    rw [sends, udpSend, if_pos (show loaded.cachedMac = Mac.zero from unknown)]
    simp [loaded, udpSetPeer, World.setTxbuffer]
  · obtain ⟨frame, trace, carries⟩ := udpSend_frame (w := loaded) r.dstPort r.srcPort unknown fits
    have body : load loaded.txbuffer 42 reply.length = reply := by
      simpa [loaded, World.txbuffer, World.setTxbuffer, payloadOffset] using load_store _ 42 reply
    rw [body] at carries
    exact ⟨[frame], by rw [sends, trace]; rfl, fun zero => absurd zero unknown,
      fun _ => ⟨frame, rfl, carries⟩⟩

/-- What serving a stashed request does. -/
structure Serves (bus : Bus σ) (w w' : World σ) (x : Exec σ) (sent : List (List UInt8)) : Prop where
  ran : eb8008Handle bus w.ebStash.data w.bus = .ok x
  state : w'.bus = x.bus
  emptied : w'.ebPending = false
  trace : w'.trace =
    w.trace ++ .handle w.ebStash.data x.accesses x.reply :: sent.map .transmit
  silent : x.reply = [] ∨ w.ebStash.srcMac = Mac.zero → sent = []
  answers : x.reply ≠ [] → w.ebStash.srcMac ≠ Mac.zero → ∃ frame, sent = [frame] ∧
    CarriesUdp frame w.ebStash.srcMac w.myMac w.myIp w.ebStash.srcIp w.ebStash.dstPort
      w.ebStash.srcPort x.reply

theorem ebServePending_serves (bus : Bus σ) {w : World σ} (busy : w.ebPending = true)
    (fits : w.ebStash.data.length ≤ ebBufLen) :
    ∃ x sent, Serves bus w (ebServePending bus w) x sent := by
  obtain ⟨x, ran, outcome, -⟩ := eb8008Handle_outcome bus w.ebStash.data w.bus
  have small : x.reply.length ≤ maxPayload := by
    have bound := outcome.reply_length
    have room : max 12 ebBufLen ≤ maxPayload := by decide
    omega
  let ranWorld : World σ := { w with
    bus := x.bus
    trace := w.trace ++ [.handle w.ebStash.data x.accesses x.reply] }
  have run : ebServePending bus w = { (if x.respLen ≠ 0 then
      sendReply ranWorld w.ebStash x.reply else ranWorld) with ebPending := false } := by
    rw [ebServePending, if_pos busy, ran]
  rw [run]
  by_cases empty : x.respLen = 0
  · have none : x.reply = [] := List.eq_nil_of_length_eq_zero (by rw [reply_length, empty])
    rw [if_neg (by simpa using empty)]
    exact ⟨x, [], ran, rfl, rfl, by simp [ranWorld], fun _ => rfl, fun some => absurd none some⟩
  · have some : x.reply ≠ [] := by
      intro none
      exact empty (by rw [← reply_length, none]; rfl)
    obtain ⟨sent, trace, silent, answers⟩ := sendReply_spec ranWorld w.ebStash small
    rw [if_pos (by simpa using empty)]
    refine ⟨x, sent, ran, (sendReply_passive ranWorld w.ebStash x.reply).bus, rfl,
      by simp [trace, ranWorld], ?_, fun _ => answers⟩
    rintro (none | zero)
    · exact absurd none some
    · exact silent zero

theorem Accounted.stash_fits {w : World σ} (inv : Accounted w) (busy : w.ebPending = true) :
    w.ebStash.data.length ≤ ebBufLen := by
  obtain ⟨finished, taken, -⟩ := inv.served
  exact inv.fits _ (by simp [taken, waiting, busy])

theorem Accounted.serve (bus : Bus σ) {w : World σ} (inv : Accounted w) :
    Accounted (ebServePending bus w) := by
  by_cases busy : w.ebPending = true
  · obtain ⟨x, sent, serves⟩ := ebServePending_serves bus busy (inv.stash_fits busy)
    obtain ⟨frames, within, origin⟩ := inv.origin
    obtain ⟨finished, taken, done⟩ := inv.served
    have same : accepted (ebServePending bus w).trace = accepted w.trace := by
      simp [serves.trace, accepted]
    refine ⟨⟨frames, ?_, by rw [same, origin]⟩, ⟨finished ++ [w.ebStash], ?_, ?_⟩,
      by rw [same]; exact inv.fits, ?_⟩
    · simpa [serves.trace, framesOf] using within
    · rw [same, taken]
      simp [waiting, busy, serves.emptied]
    · rw [List.map_append, ← done]
      simp [serves.trace, handled]
    · simpa [serves.trace, faults] using inv.clean
  · rw [ebServePending, if_neg busy]
    exact inv

theorem Accounted.step (bus : Bus σ) {w : World σ} (inv : Accounted w) (event : Event) :
    Accounted (step bus w event) := by
  cases event with
  | service => exact inv.service
  | serve => exact inv.serve bus
  | announce => exact inv.passive (udpAnnounceArp_passive w)
  | refresh ip => exact inv.refresh ip

/-! ## A waiting request -/

/-- The bus is untouched, and a waiting request stays as it is. -/
structure Undisturbed (w w' : World σ) : Prop where
  bus : w'.bus = w.bus
  kept : w.ebPending = true → w'.ebPending = true ∧ w'.ebStash = w.ebStash

theorem Passive.undisturbed {w w' : World σ} (effect : Passive w w') : Undisturbed w w' :=
  ⟨effect.bus, fun busy => ⟨effect.pending.trans busy, effect.stash⟩⟩

theorem Undisturbed.trans {w w' w'' : World σ} (first : Undisturbed w w')
    (second : Undisturbed w' w'') : Undisturbed w w'' := by
  refine ⟨second.bus.trans first.bus, fun busy => ?_⟩
  obtain ⟨busy', stash⟩ := first.kept busy
  obtain ⟨busy'', stash'⟩ := second.kept busy'
  exact ⟨busy'', stash'.trans stash⟩

theorem udpService_undisturbed (w : World σ) : Undisturbed w (udpService w) := by
  rcases udpService_cases w with quiet | ⟨f, rest, -, effect⟩
  · exact Passive.undisturbed quiet
  · cases effect with
    | passive effect =>
      have quiet := Passive.undisturbed effect
      exact ⟨quiet.bus, quiet.kept⟩
    | called target shape chosen reason steady pending stash trace =>
      exact ⟨steady.bus, fun busy => ⟨pending.trans busy, stash⟩⟩
    | accepted shape chosen free acceptable steady pending stash trace =>
      refine ⟨steady.bus, fun busy => ?_⟩
      have free : w.ebPending = false := free
      simp [busy] at free

theorem step_undisturbed (bus : Bus σ) (w : World σ) (event : Event) (other : event ≠ .serve) :
    Undisturbed w (step bus w event) := by
  cases event with
  | service => exact udpService_undisturbed w
  | serve => exact absurd rfl other
  | announce => exact Passive.undisturbed (udpAnnounceArp_passive w)
  | refresh ip =>
    exact udpArpRefresh_preserves (Undisturbed w)
      (fun v h => h.trans (udpService_undisturbed v))
      (fun v _ h => h.trans (Passive.undisturbed (sendArp_passive ..)))
      (fun v _ _ h => h.trans ⟨rfl, fun busy => ⟨busy, rfl⟩⟩) ip w ⟨rfl, fun busy => ⟨busy, rfl⟩⟩

/-- In every run from an idle server: the accepted requests come from frames of their
own, in order, and have all been handled, unmodified, except the one waiting; nothing
but serving touches the bus or the waiting request; and serving it runs the handler
once and sends at most one frame, the reply to the sender of that very frame. -/
theorem requests_answered_once (bus : Bus σ) (start : World σ) (idle : start.ebPending = false)
    (blank : start.trace = []) (events : List Event) :
    let w := run (step bus) start events
    (∃ frames : List RxFrame, frames.Sublist (framesOf w.trace) ∧
      accepted w.trace = frames.map requestOf ∧
      (w.ebPending = true → ∃ f, frames.getLast? = some f ∧ w.ebStash = requestOf f)) ∧
    (∃ finished, accepted w.trace = finished ++ waiting w ∧
      handled w.trace = finished.map Request.data) ∧
    faults w.trace = [] ∧
    (∀ event, event ≠ .serve → Undisturbed w (step bus w event)) ∧
    (w.ebPending = true → ∃ x sent, Serves bus w (step bus w .serve) x sent) ∧
    (w.ebPending = false → step bus w .serve = w) := by
  intro w
  have inv : Accounted w := run_invariant Accounted (fun _ => True)
    (fun _ event _ h => h.step bus event) events (fun _ _ => trivial) start
    ⟨⟨[], by simp [blank, framesOf], by simp [blank, accepted]⟩,
      ⟨[], by simp [blank, accepted, waiting, idle], by simp [blank, handled]⟩,
      by simp [blank, accepted], by simp [blank, faults]⟩
  obtain ⟨frames, within, origin⟩ := inv.origin
  refine ⟨⟨frames, within, origin, fun busy => ?_⟩, inv.served, inv.clean,
    fun event other => step_undisturbed bus w event other,
    fun busy => ebServePending_serves bus busy (inv.stash_fits busy), fun free => ?_⟩
  · obtain ⟨finished, taken, -⟩ := inv.served
    have last : (frames.map requestOf).getLast? = some w.ebStash := by
      rw [← origin, taken]
      simp [waiting, busy]
    rw [List.getLast?_map] at last
    obtain ⟨f, isLast, same⟩ := Option.map_eq_some_iff.mp last
    exact ⟨f, isLast, same.symm⟩
  · change ebServePending bus w = w
    rw [ebServePending, if_neg (by simp [free])]

def probe : List UInt8 := [0x4e, 0x6f, 0x11, 0x44, 0, 0, 0, 0, 0, 0, 0, 0]

/-- The frame of a datagram from 192.168.1.2. -/
def frameTo (dst : UInt32) (srcPort dstPort : UInt16) (data : List UInt8) : RxFrame :=
  ⟨42 + data.length, ofBytes ([0xff, 0xff, 0xff, 0xff, 0xff, 0xff, 2, 0, 0, 0, 0, 7, 0x08, 0x00,
    0x45, 0] ++ toBe 2 (28 + data.length) ++ [0, 0, 0, 0, 64, 0x11, 0, 0, 192, 168, 1, 2] ++
    be32 dst ++ be16 srcPort ++ be16 dstPort ++ toBe 2 (8 + data.length) ++ [0, 0] ++ data)⟩

def broadcastFrame (data : List UInt8) : RxFrame := frameTo 0xc0a801ff 1234 1234 data

/-- A board at 192.168.1.50 with one frame in its inbox. -/
def listening : World Unit where
  bus := ()
  inbox := [some (broadcastFrame probe)]
  myMac := Source.Main.macEthmac
  myIp := 0xc0a80132
  cachedMac := Mac.zero
  cachedIp := 0
  lastSrcMac := Mac.zero
  rxCallback := some .eb
  bxCallback := some .eb
  txSlots := fun _ _ => 0
  txslot := 0
  ebPending := false
  ebStash := ⟨Mac.zero, 0, 0, 0, []⟩
  rxGot := false
  rxMsgbuf := fun _ => 0
  rxMsglen := 0
  xid := 0
  trace := []

theorem requests_answered_once_probe :
    let bus : Bus Unit := ⟨fun _ _ => (0, ()), fun _ _ _ => ()⟩
    let w := run (step bus) listening [.service, .announce]
    w.ebStash.data = probe ∧ ∃ x sent, Serves bus w (step bus w .serve) x sent := by
  intro bus w
  have busy : w.ebPending = true := by decide +kernel
  exact ⟨by decide +kernel,
    (requests_answered_once bus listening rfl rfl [.service, .announce]).2.2.2.2.1 busy⟩

end Remote8008.Guarantees.RequestServer
