import Remote8008.Guarantees.EtherboneReply
import Remote8008.System.ClientServer

/-!
# The busy guard never discards a write

firmware/eb_serve.c:33-75 under the client of `System.ClientServer`. The board with its
stash is a one-slot server: a poll accepts or drops, serving empties the slot, and a
reply names the read it answers. `Lib.OneSlot` then rules out that a write finds the
slot taken.
-/

namespace Remote8008.Guarantees.WritesAccepted
open Lib.OneSlot Lib.Machine Source.Firmware Source.UdpTransmit Source.EbServe Source.UdpReceive
open Source.Eb8008 Source.EtherboneWire FirmwareEffects RequestServer EtherboneReply
open System.ClientServer

variable {σ : Type} {ip : UInt32}

/-! ## Replies name the read they answer -/

/-- A handled request answers under its own identifier, and a write under none. -/
theorem replyId_speaks (bus : Bus σ) {kind : Kind UInt32} {data : List UInt8} {s : σ} {x : Exec σ}
    (speaks : Speaks kind data) (ran : eb8008Handle bus data s = .ok x) {id : UInt32}
    (answers : replyId x.reply = some id) : kind = .read id := by
  cases kind with
  | write =>
    obtain ⟨h, rs, clear, rfl, readless⟩ := speaks
    simp [reply_of_writes bus clear readless ran, replyId, decode] at answers
  | read own =>
    obtain ⟨h, flags, byteEnable, t, clear, rfl, rfl⟩ := speaks
    obtain ⟨answer, w, reply, writes, head, -⟩ := reply_of_read bus clear rfl rfl ran
    have named : w.head = id := by simpa [replyId, reply, decode_encode, writes] using answers
    rw [← named, head]

/-! ## The board as a one-slot server -/

def requestIn (p : Packet ip) : Request := requestOf p.frame

/-- The board's trace and stash, in terms of the packets of the abstract server. -/
structure Represents (s : Sys σ ip) (c : Config (Packet ip) UInt32) : Prop where
  client : s.client = c.client
  flight : s.flight = c.flight
  arrived : s.arrived = c.arrived
  used : s.used = c.used
  serving : Serving ip s.board
  accepted : accepted s.board.trace = c.kept.map requestIn
  handled : handled s.board.trace = c.served.map fun p => (requestIn p).data
  slot : waiting s.board = c.slot.toList.map requestIn
  replies : ∀ reply ∈ replies s.board.trace, ∀ id, replyId reply = some id →
    ∃ p ∈ c.served, p.kind = .read id

/-- Steps of the board that neither stash nor handle keep the representation. -/
theorem Represents.quiet {s : Sys σ ip} {c : Config (Packet ip) UInt32} (rel : Represents s c)
    {w : World σ} (extra : List Obs) (steady : Steady s.board w)
    (same : waiting w = waiting s.board) (trace : w.trace = s.board.trace ++ extra)
    (noAccept : RequestServer.accepted extra = []) (noHandle : RequestServer.handled extra = [])
    (noReply : System.ClientServer.replies extra = []) :
    Represents { s with board := w } c where
  client := rel.client
  flight := rel.flight
  arrived := rel.arrived
  used := rel.used
  serving := rel.serving.of_steady steady
  accepted := by
    have old := rel.accepted
    simp only [RequestServer.accepted, trace, List.filterMap_append] at old noAccept ⊢
    rw [noAccept, List.append_nil, old]
  handled := by
    have old := rel.handled
    simp only [RequestServer.handled, trace, List.filterMap_append] at old noHandle ⊢
    rw [noHandle, List.append_nil, old]
  slot := same.trans rel.slot
  replies := by
    have old := rel.replies
    simp only [System.ClientServer.replies, trace, List.filterMap_append] at old noReply ⊢
    rw [noReply, List.append_nil]
    exact old

theorem Represents.passive {s : Sys σ ip} {c : Config (Packet ip) UInt32} (rel : Represents s c)
    {w : World σ} (effect : Passive s.board w) : Represents { s with board := w } c := by
  obtain ⟨sent, trace⟩ := effect.trace
  exact rel.quiet _ effect.toSteady (by simp [waiting, effect.pending, effect.stash]) trace
    (by simp [RequestServer.accepted]) (by simp [RequestServer.handled])
    (by simp [System.ClientServer.replies])

/-- Traffic that `eb_rx_callback` turns away, such as what the magic check rejects. -/
def Rejected (f : RxFrame) : Prop := WellFormedUdp f → ¬ Acceptable (datagram f).data

theorem Represents.noise {s : Sys σ ip} {c : Config (Packet ip) UInt32} (rel : Represents s c)
    {f : RxFrame} (rejected : Rejected f) : Represents { s with board := poll s.board f } c := by
  have effect := processFrame_received f
    ({ s.board with trace := s.board.trace ++ [.frame f] } : World σ)
  have ran : poll s.board f = processFrame f
    { s.board with trace := s.board.trace ++ [.frame f] } := rfl
  rw [← ran] at effect
  have steady := (frame_steady s.board s.board.inbox f).trans effect.steady
  cases effect with
  | passive effect =>
    obtain ⟨sent, trace⟩ := effect.trace
    refine rel.quiet (.frame f :: sent.map .transmit) steady ?_ (by simp [trace]) ?_ ?_ ?_
    · simp [waiting, effect.pending, effect.stash]
    · simp [RequestServer.accepted]
    · simp [RequestServer.handled]
    · simp [System.ClientServer.replies]
  | called target shape chosen reason _ pending stash trace =>
    exact rel.quiet [.frame f, .callback target (datagram f)] steady
      (by simp [waiting, pending, stash]) (by simp [trace]) rfl rfl rfl
  | accepted shape chosen free acceptable steady pending stash trace =>
    exact absurd acceptable (rejected shape)

theorem poll_eq {w : World σ} {f : RxFrame} (shape : WellFormedUdp f)
    (chosen : chosenCallback w (ipDst f) = some .eb) : poll w f =
      ebRxCallback { w with
        lastSrcMac := srcMac f
        trace := w.trace ++ [.frame f, .callback .eb (datagram f)] } (datagram f) := by
  let taken : World σ := { w with trace := w.trace ++ [.frame f] }
  have delivered : processFrame f taken = _ := processFrame_delivers (w := taken) shape chosen
  have ran : poll w f = processFrame f taken := rfl
  rw [ran, delivered]
  simp [invoke, World.log, taken]

theorem packet_acceptable (p : Packet ip) : Acceptable (datagram p.frame).data := by
  have magic : ∀ h rs, (datagram p.frame).data = encode h rs →
      Acceptable (datagram p.frame).data := by
    intro h rs same
    refine ⟨?_, p.short⟩
    simp [same, encode, encodeHeader, ebMagic0, ebMagic1]
  have speaks := p.speaks
  cases hkind : p.kind with
  | write =>
    rw [hkind] at speaks
    obtain ⟨h, rs, -, same, -⟩ := speaks
    exact magic h rs same
  | read id =>
    rw [hkind] at speaks
    obtain ⟨h, flags, byteEnable, s, -, same, -⟩ := speaks
    exact magic h _ same

theorem slot_none_of_free {s : Sys σ ip} {c : Config (Packet ip) UInt32} (rel : Represents s c)
    (free : s.board.ebPending = false) : c.slot = none := by
  have slot := rel.slot
  cases h : c.slot with
  | none => rfl
  | some p => simp [waiting, free, h] at slot

theorem slot_some_of_busy {s : Sys σ ip} {c : Config (Packet ip) UInt32} (rel : Represents s c)
    (busy : s.board.ebPending = true) : ∃ p, c.slot = some p ∧ s.board.ebStash = requestIn p := by
  have slot := rel.slot
  cases h : c.slot with
  | none => simp [waiting, busy, h] at slot
  | some p => exact ⟨p, rfl, by simpa [waiting, busy, h] using slot⟩

theorem Represents.deliver {s : Sys σ ip} {c : Config (Packet ip) UInt32} (rel : Represents s c)
    {p : Packet ip} {rest : List (Packet ip)} (first : s.flight = p :: rest) :
    ∃ c', Step Packet.kind c c' ∧ Represents { s with
      board := poll s.board p.frame, flight := rest, arrived := s.arrived ++ [p] } c' := by
  have ran := poll_eq p.shape (rel.serving.chosen p.addressed)
  have line : c.flight = p :: rest := rel.flight.symm.trans first
  by_cases busy : s.board.ebPending = true
  · obtain ⟨q, slot, stash⟩ := slot_some_of_busy rel busy
    rw [ebRxCallback_busy _ (by exact busy)] at ran
    refine ⟨_, .drop p q rest line slot, ?_⟩
    rw [ran]
    have kept := rel.quiet (w := { s.board with
        lastSrcMac := srcMac p.frame
        trace := s.board.trace ++ [.frame p.frame, .callback .eb (datagram p.frame)] })
      _ ⟨rfl, rfl, rfl, rfl, rfl⟩ rfl rfl rfl rfl rfl
    exact ⟨kept.client, rfl, by rw [rel.arrived], kept.used, kept.serving, kept.accepted,
      kept.handled, kept.slot, kept.replies⟩
  · have free : s.board.ebPending = false := by simpa using busy
    rw [ebRxCallback_accepts (by exact free) (packet_acceptable p)] at ran
    refine ⟨_, .accept p rest line (slot_none_of_free rel free), ?_⟩
    rw [ran]
    refine ⟨rel.client, rfl, by rw [rel.arrived], rel.used, ⟨rel.serving.myIp,
      rel.serving.rxCallback, rel.serving.bxCallback⟩, ?_, ?_, ?_, ?_⟩
    · have old := rel.accepted
      simp only [RequestServer.accepted] at old
      simp [RequestServer.accepted, old, requestIn, requestOf, datagram]
    · simpa [RequestServer.handled] using rel.handled
    · simp [waiting, requestIn, requestOf, datagram]
    · simpa [System.ClientServer.replies] using rel.replies

theorem Represents.serve (bus : Bus σ) {s : Sys σ ip} {c : Config (Packet ip) UInt32}
    (rel : Represents s c) (busy : s.board.ebPending = true) :
    ∃ p, c.slot = some p ∧ Represents { s with board := ebServePending bus s.board }
      { c with slot := none, served := c.served ++ [p] } := by
  obtain ⟨p, slot, stash⟩ := slot_some_of_busy rel busy
  have fits : s.board.ebStash.data.length ≤ ebBufLen := by
    rw [stash]
    exact p.short
  obtain ⟨x, sent, serves⟩ := ebServePending_serves bus busy fits
  refine ⟨p, slot, rel.client, rel.flight, rel.arrived, rel.used,
    ebServePending_serving bus rel.serving, ?_, ?_, ?_, ?_⟩
  · simpa [serves.trace, RequestServer.accepted] using rel.accepted
  · have old := rel.handled
    simp only [RequestServer.handled] at old
    simp [serves.trace, RequestServer.handled, old, stash]
  · simp [waiting, serves.emptied]
  · intro reply member id answers
    have cases : reply ∈ System.ClientServer.replies s.board.trace ∨ reply = x.reply := by
      simpa [serves.trace, System.ClientServer.replies] using member
    rcases cases with old | rfl
    · obtain ⟨q, wasServed, isRead⟩ := rel.replies reply old id answers
      exact ⟨q, by simp [wasServed], isRead⟩
    · have ran := serves.ran
      rw [stash] at ran
      exact ⟨p, by simp, replyId_speaks bus p.speaks ran answers⟩

/-- Every event of the system is a step of the one-slot server, or none. -/
theorem Represents.step (bus : Bus σ) {s : Sys σ ip} {c : Config (Packet ip) UInt32}
    (rel : Represents s c) (event : Event ip) (clean : ∀ f, event = .noise f → Rejected f) :
    ∃ c', (c' = c ∨ Step Packet.kind c c') ∧ Represents (step bus s event) c' := by
  have stays : ∃ c', (c' = c ∨ Step Packet.kind c c') ∧ Represents s c' := ⟨c, .inl rfl, rel⟩
  cases event with
  | write p =>
    simp only [System.ClientServer.step]
    split
    next ready writes =>
      refine ⟨_, .inr (.write p (rel.client.symm.trans ready) writes), ?_⟩
      exact ⟨rfl, by rw [rel.flight], rel.arrived, rel.used, rel.serving, rel.accepted,
        rel.handled, rel.slot, rel.replies⟩
    · exact stays
  | attempt p =>
    simp only [System.ClientServer.step]
    split
    next id reads =>
      split
      · exact stays
      next fresh =>
        refine ⟨_, .inr (.attempt p id reads (by rwa [← rel.used])), ?_⟩
        exact ⟨rfl, by rw [rel.flight], rel.arrived, by rw [rel.used], rel.serving,
          rel.accepted, rel.handled, rel.slot, rel.replies⟩
    · exact stays
  | lose =>
    cases flight : s.flight with
    | nil =>
      refine ⟨c, .inl rfl, ?_⟩
      exact ⟨rel.client, by rw [← rel.flight, flight]; simp [System.ClientServer.step, flight],
        rel.arrived, rel.used, rel.serving, rel.accepted, rel.handled, rel.slot, rel.replies⟩
    | cons p rest =>
      refine ⟨_, .inr (.lose p rest (rel.flight.symm.trans flight)), ?_⟩
      exact ⟨rel.client, by simp [System.ClientServer.step, flight], rel.arrived, rel.used,
        rel.serving, rel.accepted, rel.handled, rel.slot, rel.replies⟩
  | deliver =>
    simp only [System.ClientServer.step]
    split
    next p rest first =>
      obtain ⟨c', move, rel'⟩ := rel.deliver first
      exact ⟨c', .inr move, rel'⟩
    · exact stays
  | noise f => exact ⟨c, .inl rfl, rel.noise (clean f rfl)⟩
  | serve =>
    by_cases busy : s.board.ebPending = true
    · obtain ⟨p, slot, rel'⟩ := rel.serve bus busy
      exact ⟨_, .inr (.serve p slot), rel'⟩
    · have idle : ebServePending bus s.board = s.board := by rw [ebServePending, if_neg busy]
      simp only [System.ClientServer.step, idle]
      exact stays
  | announce => exact ⟨c, .inl rfl, rel.passive (udpAnnounceArp_passive s.board)⟩
  | arpRequest gateway => exact ⟨c, .inl rfl, rel.passive (sendArp_passive ..)⟩
  | arpCache gateway mac =>
    exact ⟨c, .inl rfl, rel.passive (link_passive _ ..)⟩
  | receive index =>
    simp only [System.ClientServer.step]
    split
    next id reply reading taken =>
      split
      next answers =>
        have answered := rel.replies reply (List.mem_of_getElem? taken) id answers
        refine ⟨_, .inr (.receive id (rel.client.symm.trans reading) answered), ?_⟩
        exact ⟨rfl, rel.flight, rel.arrived, rel.used, rel.serving, rel.accepted, rel.handled,
          rel.slot, rel.replies⟩
      · exact stays
    · exact stays

/-! ## Every run -/

theorem sound_run (bus : Bus σ) {start : World σ} (serving : Serving ip start)
    (idle : start.ebPending = false) (blank : start.trace = []) (events : List (Event ip))
    (foreign : ∀ f, Event.noise f ∈ events → Rejected f) :
    ∃ c, Represents (run (System.ClientServer.step bus) (Sys.start start) events) c ∧
      Sound Packet.kind c := by
  apply run_invariant (fun s => ∃ c, Represents s c ∧ Sound Packet.kind c)
    (fun event => ∀ f, event = .noise f → Rejected f) ?_ events
    (fun event member f noise => foreign f (noise ▸ member))
  · refine ⟨⟨.ready, [], none, [], [], [], []⟩, ⟨rfl, rfl, rfl, rfl, serving, ?_, ?_, ?_, ?_⟩,
      ⟨rfl, List.Sublist.refl _, rfl, by simp, .ready rfl rfl rfl⟩⟩
    · simp [Sys.start, blank, RequestServer.accepted]
    · simp [Sys.start, blank, RequestServer.handled]
    · simp [Sys.start, waiting, idle]
    · simp [Sys.start, blank, System.ClientServer.replies]
  · rintro s event clean ⟨c, rel, sound⟩
    obtain ⟨c', same | move, rel'⟩ := rel.step bus event clean
    · exact ⟨c', rel', same ▸ sound⟩
    · exact ⟨c', rel', sound.step move⟩

/-- What has become of the requests that reached the board: `kept` are those
`eb_rx_callback` accepted, in order of arrival. -/
structure WritesExecuted (bus : Bus σ) (s : Sys σ ip) (kept : List (Packet ip)) : Prop where
  within : kept.Sublist s.arrived
  writes : kept.filter (fun p => p.kind.isWrite) = s.arrived.filter (fun p => p.kind.isWrite)
  accepted : accepted s.board.trace = kept.map requestIn
  /-- Each is handled once, in order, the last one by the next serve at the latest. -/
  handled : handled s.board.trace <+: kept.map fun p => (datagram p.frame).data
  next : RequestServer.handled (ebServePending bus s.board).trace =
    kept.map fun p => (datagram p.frame).data
  /-- What arrived before an accepted request and is a write was accepted, and so is
  handled, before it. -/
  before : ∀ earlier p later, kept = earlier ++ p :: later →
    ∃ early late, s.arrived = early ++ p :: late ∧
      earlier.filter (fun q => q.kind.isWrite) = early.filter (fun q => q.kind.isWrite)

/-- In every interleaving of the client, the network and the serve phase, every write
that reaches the board is accepted and executed once, ahead of all later reads. -/
theorem writes_never_dropped (bus : Bus σ) (start : World σ) (serving : Serving ip start)
    (idle : start.ebPending = false) (blank : start.trace = []) (events : List (Event ip))
    (foreign : ∀ f, Event.noise f ∈ events → Rejected f) :
    ∃ kept, WritesExecuted bus (run (System.ClientServer.step bus) (Sys.start start) events)
      kept := by
  obtain ⟨c, rel, sound⟩ := sound_run bus serving idle blank events foreign
  refine ⟨c.kept, rel.arrived ▸ sound.within, rel.arrived ▸ sound.writes, rel.accepted, ?_, ?_, ?_⟩
  · rw [rel.handled, sound.order, List.map_append]
    exact List.prefix_append _ _
  · by_cases busy :
        (run (System.ClientServer.step bus) (Sys.start start) events).board.ebPending = true
    · obtain ⟨p, slot, rel'⟩ := rel.serve bus busy
      rw [rel'.handled, sound.order, slot]
      rfl
    · have free := slot_none_of_free rel (by simpa using busy)
      rw [ebServePending, if_neg busy, rel.handled, sound.order, free]
      simp [requestIn, requestOf]
  · intro earlier p later place
    rw [rel.arrived]
    exact sound.writes_before place

def header : Header := ⟨0x10, 0x44, 0⟩

def popRecord : Record := ⟨0, 0x0f, some (.single 0xf0000004 1), none⟩

def rxRecord (id : UInt32) : Record := ⟨0, 0x0f, none, some (.single id 0xf0000000)⟩

def popRequest : Packet 0xc0a80132 where
  frame := broadcastFrame (encode header [popRecord])
  kind := .write
  shape := by constructor <;> decide +kernel
  addressed := .inr (.inr (by decide +kernel))
  short := by decide +kernel
  speaks := ⟨header, [popRecord], by decide, by decide +kernel, by simp [popRecord]⟩

def firstRead : Packet 0xc0a80132 where
  frame := broadcastFrame (encode header [rxRecord 1])
  kind := .read 1
  shape := by constructor <;> decide +kernel
  addressed := .inr (.inr (by decide +kernel))
  short := by decide +kernel
  speaks :=
    ⟨header, 0, 0x0f, ⟨1, [0xf0000000], by simp, by simp⟩, by decide, by decide +kernel, rfl⟩

def secondRead : Packet 0xc0a80132 where
  frame := broadcastFrame (encode header [rxRecord 2])
  kind := .read 2
  shape := by constructor <;> decide +kernel
  addressed := .inr (.inr (by decide +kernel))
  short := by decide +kernel
  speaks :=
    ⟨header, 0, 0x0f, ⟨2, [0xf0000000], by simp, by simp⟩, by decide, by decide +kernel, rfl⟩

/-- The first attempt of the read finds the write unserved and is dropped; the second
is answered, and the client writes again. -/
theorem writes_never_dropped_busy :
    let bus : Bus Unit := ⟨fun _ _ => (0, ()), fun _ _ _ => ()⟩
    let events : List (Event 0xc0a80132) := [.write popRequest, .deliver, .attempt firstRead,
      .deliver, .serve, .attempt secondRead, .deliver, .serve, .receive 1, .write popRequest,
      .deliver]
    let s := run (System.ClientServer.step bus) (Sys.start listening) events
    s.arrived.length = 4 ∧ (RequestServer.accepted s.board.trace).length = 3 ∧
      ∃ kept, WritesExecuted bus s kept := by
  intro bus events s
  have silent : ∀ f, Event.noise f ∈ events → Rejected f := by
    intro f member
    simp [events, List.mem_cons] at member
  exact ⟨by decide +kernel, by decide +kernel,
    writes_never_dropped bus listening ⟨rfl, rfl, rfl⟩ rfl rfl events silent⟩

end Remote8008.Guarantees.WritesAccepted
