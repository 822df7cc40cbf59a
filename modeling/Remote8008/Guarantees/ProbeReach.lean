import Remote8008.Guarantees.ServePhase
import Remote8008.Source.Probe

/-!
# Who finds the board, and who can talk to it

host/b8008net/discovery.py:106-205, host/b8008net/eb_server.py:22-76 and
firmware/eb8008.c:73-85 with the address filter of firmware/udp.c:679-692,760-784. Discovery
also probes 255.255.255.255, which the board always hears. The bridge sends to the /24
broadcast address of its own machine alone, which the board hears only in that /24.
-/

namespace Remote8008.Guarantees.ProbeReach
open Lib.BigEndian Source.Firmware Source.UdpTransmit Source.EbServe Source.UdpReceive Source.Main
open Source.Eb8008 Source.EtherboneWire Source.Probe FirmwareEffects FrameDispatch TransmitFrame
open EtherbonePacket EtherboneTotal RequestServer UnleasedSilence ServePhase

variable {σ : Type}

/-! ## Addresses -/

theorem or_host_toNat (ip : UInt32) : (ip ||| ~~~netmask).toNat = ip.toNat / 256 * 256 + 255 := by
  have low : 2 ^ 8 - 1 < 2 ^ 8 := by decide
  have joined : ip.toNat / 256 * 256 + 255 = 2 ^ 8 * (ip.toNat / 2 ^ 8) ||| (2 ^ 8 - 1) := by
    rw [← Nat.two_pow_add_eq_or_of_lt low, Nat.mul_comm (2 ^ 8)]
    rfl
  rw [joined, UInt32.toNat_or, show (~~~netmask).toNat = 2 ^ 8 - 1 from rfl]
  apply Nat.eq_of_testBit_eq
  intro i
  rw [Nat.testBit_or, Nat.testBit_or, Nat.testBit_two_pow_sub_one, Nat.testBit_two_pow_mul,
    Nat.testBit_div_two_pow]
  by_cases inside : i < 8
  · simp [inside]
  · have high : 8 ≤ i := by omega
    simp [high, Nat.sub_add_cancel high]

theorem netmask_toNat (ip : UInt32) : (ip &&& netmask).toNat = ip.toNat / 256 * 256 := by
  have word : netmask.toNat = (2 ^ 24 - 1) * 2 ^ 8 := by decide
  apply Nat.eq_of_testBit_eq
  intro i
  rw [UInt32.toNat_and, Nat.testBit_and, word, Nat.testBit_mul_two_pow,
    Nat.testBit_two_pow_sub_one, show (256 : Nat) = 2 ^ 8 from rfl, Nat.testBit_mul_two_pow,
    Nat.testBit_div_two_pow]
  by_cases low : 8 ≤ i
  · by_cases high : i - 8 < 24
    · simp [low, high]
    · have above : ip.toNat < 2 ^ i :=
        Nat.lt_of_lt_of_le ip.toNat_lt (Nat.pow_le_pow_right (by decide) (by omega))
      simp [low, high, Nat.testBit_lt_two_pow above]
  · simp [low]

theorem directed_eq_iff {x y : UInt32} :
    directed x = directed y ↔ x.toNat / 256 = y.toNat / 256 := by
  rw [← UInt32.toNat_inj, directed, directed, or_host_toNat, or_host_toNat]
  omega

theorem mem_subnetCandidates {here x : UInt32} : x ∈ subnetCandidates here netmask ↔
    directed x = directed here ∧ x ≠ here ∧ x ≠ here &&& netmask ∧ x ≠ directed here := by
  have bound := x.toNat_lt
  have network := netmask_toNat here
  have broadcast : (directed here).toNat = here.toNat / 256 * 256 + 255 := or_host_toNat here
  have swept : ((here &&& netmask) ||| ~~~netmask).toNat = here.toNat / 256 * 256 + 255 := by
    rw [or_host_toNat, network]
    omega
  have inside : (∃ n, ((here &&& netmask).toNat + 1 ≤ n ∧ n < (here &&& netmask).toNat + 1 +
      (((here &&& netmask) ||| ~~~netmask).toNat - ((here &&& netmask).toNat + 1))) ∧
        UInt32.ofNat n = x) ↔
      here.toNat / 256 * 256 < x.toNat ∧ x.toNat < here.toNat / 256 * 256 + 255 := by
    rw [network, swept]
    constructor
    · rintro ⟨n, within, rfl⟩
      have room := here.toNat_lt
      have size : UInt32.size = 2 ^ 32 := rfl
      rw [UInt32.toNat_ofNat_of_lt' (by omega)]
      omega
    · intro within
      exact ⟨x.toNat, by omega, UInt32.ofNat_toNat⟩
  have own : x ≠ here ↔ x.toNat ≠ here.toNat := by simp only [ne_eq, UInt32.toNat_inj]
  have away : x ≠ here &&& netmask ∧ x ≠ directed here ↔
      x.toNat ≠ here.toNat / 256 * 256 ∧ x.toNat ≠ here.toNat / 256 * 256 + 255 := by
    rw [← broadcast, ← network]
    simp only [ne_eq, UInt32.toNat_inj]
  simp only [subnetCandidates, List.mem_filter, List.mem_map, List.mem_range'_1, decide_eq_true_eq]
  rw [inside, directed_eq_iff, away, own]
  omega

/-- The board at `ip` hears the broadcasts of its own /24 and no other but 255.255.255.255. -/
theorem addressedTo_directed {ip here : UInt32} : AddressedTo ip (directed here) ↔
    directed here = directed ip ∨ directed here = limited := by
  have own : directed here = ip → directed here = directed ip := by
    intro same
    rw [← same, directed_eq_iff, directed, or_host_toNat]
    omega
  constructor
  · rintro (unicast | broadcast | subnet)
    · exact .inl (own unicast)
    · exact .inr broadcast
    · exact .inl subnet
  · rintro (subnet | broadcast)
    · exact .inr (.inr subnet)
    · exact .inr (.inl broadcast)

theorem forall₂_mem_right {α β : Type} {R : α → β → Prop} {as : List α} {bs : List β}
    (related : List.Forall₂ R as bs) {b : β} (member : b ∈ bs) : ∃ a ∈ as, R a b := by
  induction related with
  | nil => cases member
  | cons first _ ih =>
    rcases List.mem_cons.mp member with rfl | later
    · exact ⟨_, List.mem_cons_self, first⟩
    · obtain ⟨a, found, holds⟩ := ih later
      exact ⟨a, List.mem_cons_of_mem _ found, holds⟩

/-! ## Answers of the server -/

/-- An exchange of a phase is a run of the handler on one of its requests. -/
theorem exchange_ran (bus : Bus σ) (s : σ) (requests : List Request) {e : Exchange}
    (served : e ∈ (serveAll bus s requests).2) : e.request ∈ requests ∧
      ∃ s x, eb8008Handle bus e.request.data s = .ok x ∧ e.reply = x.reply := by
  induction requests generalizing s with
  | nil => cases served
  | cons r rest ih =>
    rw [serveAll] at served
    cases ran : eb8008Handle bus r.data s with
    | error fault =>
      rw [ran] at served
      obtain ⟨member, handled⟩ := ih s served
      exact ⟨List.mem_cons_of_mem _ member, handled⟩
    | ok x =>
      rw [ran] at served
      rcases List.mem_cons.mp served with rfl | later
      · exact ⟨List.mem_cons_self, s, x, ran, rfl⟩
      · obtain ⟨member, handled⟩ := ih x.bus later
        exact ⟨List.mem_cons_of_mem _ member, handled⟩

/-- Every request of a phase has its exchange. -/
theorem request_exchanged (bus : Bus σ) (s : σ) {requests : List Request} {r : Request}
    (arrived : r ∈ requests) : ∃ e ∈ (serveAll bus s requests).2, e.request = r := by
  induction requests generalizing s with
  | nil => cases arrived
  | cons first rest ih =>
    obtain ⟨x, ran, -⟩ := eb8008Handle_outcome bus first.data s
    simp only [serveAll, ran]
    rcases List.mem_cons.mp arrived with rfl | later
    · exact ⟨_, List.mem_cons_self, rfl⟩
    · obtain ⟨e, member, same⟩ := ih x.bus later
      exact ⟨e, List.mem_cons_of_mem _ member, same⟩

/-- A probe of a host whose hardware address is known is answered by a probe reply. -/
theorem probe_answered {bus : Bus σ} {s : σ} {requests : List Request} {mac : Mac} {ip : UInt32}
    {frames : List (List UInt8)}
    (sends : List.Forall₂ (Answers mac ip) ((serveAll bus s requests).2.filter (·.Answered)) frames)
    {r : Request} (arrived : r ∈ requests) (known : r.srcMac ≠ Mac.zero) (probe : IsProbe r.data) :
    ∃ frame ∈ frames, CarriesUdp frame r.srcMac mac ip r.srcIp r.dstPort r.srcPort
      (headerBytes true ++ be32 0) := by
  obtain ⟨e, member, same⟩ := request_exchanged bus s arrived
  obtain ⟨-, s', x, ran, reply⟩ := exchange_ran bus s requests member
  rw [same, eb8008Handle_probe bus s' probe] at ran
  have answer : e.reply = headerBytes true ++ be32 0 := by
    rw [reply, ← Except.ok.inj ran]
    rfl
  have answered : e.Answered := by
    rw [Exchange.Answered, answer, same]
    exact ⟨by decide, known⟩
  obtain ⟨frame, sent, answers⟩ :=
    forall₂_mem_right sends.flip (List.mem_filter.mpr ⟨member, by simpa using answered⟩)
  have carries : CarriesUdp frame e.request.srcMac mac ip e.request.srcIp e.request.dstPort
    e.request.srcPort e.reply := answers
  rw [same, answer] at carries
  exact ⟨frame, sent, carries⟩

theorem isProbe_of_flag {h : Header} {rs : List Record} (probing : h.flags &&& ebPf ≠ 0) :
    IsProbe (encode h rs) := by
  refine ⟨⟨?_, rfl, rfl⟩, h.flags, rfl, probing⟩
  simp [encode, encodeHeader]

/-- The probe reply decodes as one. -/
theorem isProbeReply_probe (codec : PacketCodec) :
    isProbeReply codec (headerBytes true ++ be32 0) = true := by
  let h : Header := ⟨0x12, 0x44, 0⟩
  have bytes : headerBytes true ++ be32 0 = encode h [⟨0, 0, none, none⟩] := by decide
  obtain ⟨packet, decoded⟩ := Option.ne_none_iff_exists'.mp (codec.padded h rfl)
  have read := codec.header h _ packet rfl decoded
  have flag : decide (h.flags &&& ebPr ≠ 0) = true := by decide
  rw [bytes, isProbeReply, decoded, read, flag]
  rfl

/-- The answer to reads does not. -/
theorem isProbeReply_answers (codec : PacketCodec) (rest : List UInt8) :
    isProbeReply codec (headerBytes false ++ rest) = false := by
  let h : Header := ⟨0x10, 0x44, 0⟩
  have bytes : headerBytes false = encodeHeader h := by decide
  have flag : decide (h.flags &&& ebPr ≠ 0) = false := by decide
  rw [bytes, isProbeReply]
  cases decoded : codec.decode (encodeHeader h ++ rest) with
  | none => rfl
  | some packet =>
    rw [codec.header h rest packet rfl decoded, flag]
    rfl

/-- What the handler sends is a probe reply exactly when it was sent a probe. -/
theorem isProbeReply_reply (codec : PacketCodec) (bus : Bus σ) {req : List UInt8} {s : σ}
    {x : Exec σ} (ran : eb8008Handle bus req s = .ok x) (sent : x.reply ≠ []) :
    isProbeReply codec x.reply = true ↔ IsProbe req := by
  by_cases probe : IsProbe req
  · rw [eb8008Handle_probe bus s probe] at ran
    obtain rfl := Except.ok.inj ran
    exact ⟨fun _ => probe, fun _ => isProbeReply_probe codec⟩
  · refine ⟨fun accepted => ?_, fun probing => absurd probing probe⟩
    by_cases etherbone : IsEtherbone req
    · obtain ⟨h, rs, y, -, ran', rel⟩ := eb8008Handle_records bus s etherbone probe
      obtain rfl : x = y := by simpa [ran] using ran'
      rw [reply_of_refines x _ _ rel, replyBytes] at accepted sent
      split at sent
      · exact absurd rfl sent
      next some =>
        rw [if_neg some, isProbeReply_answers] at accepted
        cases accepted
    · rw [eb8008Handle_foreign bus s etherbone] at ran
      obtain rfl := Except.ok.inj ran
      exact absurd rfl sent

/-! ## What a host receives -/

structure Host where
  ip : UInt32
  mac : Mac
  port : UInt16

/-- A frame of the board for the host's socket. -/
structure ToHost (host : Host) (frame : List UInt8) : Prop where
  mac : field frame 0 6 = host.mac.toList
  ip : field frame 30 4 = be32 host.ip
  port : field frame 36 2 = be16 host.port

/-- A request that comes from the host's socket. -/
structure FromHost (host : Host) (r : Request) : Prop where
  mac : r.srcMac = host.mac
  ip : r.srcIp = host.ip
  port : r.srcPort = host.port

/-- The payload and the source address `recvfrom` returns for a frame of the board. -/
def hostReads (frame : List UInt8) : List UInt8 × UInt32 :=
  (field frame 42 (ofBe (field frame 38 2) - 8), ofBe32 (field frame 26 4))

theorem hostReads_carries {frame payload : List UInt8} {destmac srcmac : Mac}
    {srcIp dstIp : UInt32} {srcPort dstPort : UInt16}
    (carries : CarriesUdp frame destmac srcmac srcIp dstIp srcPort dstPort payload)
    (fits : payload.length ≤ maxPayload) : hostReads frame = (payload, srcIp) := by
  have length : ofBe (be16 (UInt16.ofNat (payload.length + 8))) = payload.length + 8 := by
    have room : maxPayload + 8 < UInt16.size := by decide
    rw [ofBe_be16, UInt16.toNat_ofNat_of_lt' (by omega)]
  rw [hostReads, carries.udpLength, length, Nat.add_sub_cancel, carries.payload, carries.srcIp,
    ofBe32_be32]

/-- The frames of a serve phase for a host are answers to its requests. -/
theorem phase_answers {bus : Bus σ} {s : σ} {requests : List Request} {mac : Mac} {ip : UInt32}
    {frames : List (List UInt8)} (small : ∀ r ∈ requests, r.data.length ≤ ebBufLen)
    (sends : List.Forall₂ (Answers mac ip) ((serveAll bus s requests).2.filter (·.Answered)) frames)
    {frame : List UInt8} (sent : frame ∈ frames) :
    ∃ r ∈ requests, ∃ s x, eb8008Handle bus r.data s = .ok x ∧ x.reply ≠ [] ∧
      hostReads frame = (x.reply, ip) ∧ ∀ host, ToHost host frame → FromHost host r := by
  obtain ⟨e, member, answers⟩ := forall₂_mem_right sends sent
  obtain ⟨exchanged, answered⟩ := List.mem_filter.mp member
  obtain ⟨arrived, s, x, ran, reply⟩ := exchange_ran bus _ requests exchanged
  have told : e.Answered := by simpa using answered
  rw [Exchange.Answered, reply] at told
  unfold Answers at answers
  rw [reply] at answers
  have fits : x.reply.length ≤ maxPayload := by
    obtain ⟨y, ran', outcome, -⟩ := eb8008Handle_outcome bus e.request.data s
    obtain rfl : x = y := by simpa [ran] using ran'
    have bound := outcome.reply_length
    have short := small _ arrived
    have room : max 12 ebBufLen ≤ maxPayload := by decide
    omega
  refine ⟨e.request, arrived, s, x, ran, told.1, hostReads_carries answers fits, ?_⟩
  intro host ours
  refine ⟨?_, ?_, ?_⟩
  · exact Vector.toList_inj.mp (answers.destmac.symm.trans ours.mac)
  · exact be32_injective (answers.dstIp.symm.trans ours.ip)
  · have port := congrArg ofBe16 (answers.dstPort.symm.trans ours.port)
    rwa [ofBe16_be16, ofBe16_be16] at port

/-- What a phase serves comes from its frames. -/
theorem phase_origin {ip : UInt32} {ticks : List Nat} {inbox : List (Option RxFrame)} {r : Request}
    (kept : r ∈ (phase ip ticks inbox).2) :
    ∃ f, some f ∈ inbox ∧ IsRequest ip f ∧ r = requestOf f := by
  induction ticks generalizing inbox with
  | nil => cases kept
  | cons s ticks ih =>
    rw [phase] at kept
    rcases List.mem_append.mp kept with tick | later
    · rcases List.mem_append.mp tick with first | rest
      · obtain ⟨f, member, origin⟩ := arrivals_origin (List.mem_of_mem_take first)
        exact ⟨f, List.mem_of_mem_take member, origin⟩
      · obtain ⟨f, member, origin⟩ := arrivals_origin rest
        exact ⟨f, List.mem_of_mem_drop (List.mem_of_mem_take member), origin⟩
    · obtain ⟨f, member, origin⟩ := ih later
      exact ⟨f, List.mem_of_mem_drop member, origin⟩

theorem served_fit {lease : Lease} {inbox : List (Option RxFrame)} (r : Request)
    (kept : r ∈ (served lease inbox).2) : r.data.length ≤ ebBufLen := by
  obtain ⟨f, -, request, rfl⟩ := phase_origin kept
  exact request.acceptable.2

/-! ## Discovery -/

/-- What a probing socket may receive while the board shows `seen`: the board's frames for it,
in any order and any number of times, and datagrams that are no probe replies. -/
def Receives (codec : PacketCodec) (host : Host) (seen : List Obs)
    (heard : List (List UInt8 × UInt32)) : Prop :=
  ∀ d ∈ heard, isProbeReply codec d.1 = false ∨
    ∃ frame ∈ udpFrames seen, ToHost host frame ∧ d = hostReads frame

/-- A window yields the source of its first probe reply. -/
theorem listenFor_cases (codec : PacketCodec) (heard : List (List UInt8 × UInt32)) :
    (listenFor codec heard = none ∧ ∀ d ∈ heard, isProbeReply codec d.1 = false) ∨
      ∃ d ∈ heard, isProbeReply codec d.1 = true ∧ listenFor codec heard = some d.2 := by
  induction heard with
  | nil => exact .inl ⟨rfl, by simp⟩
  | cons d rest ih =>
    obtain ⟨data, source⟩ := d
    rw [listenFor]
    by_cases reply : isProbeReply codec data = true
    · rw [if_pos reply]
      exact .inr ⟨(data, source), List.mem_cons_self, reply, rfl⟩
    · rw [if_neg reply]
      rcases ih with ⟨nothing, others⟩ | ⟨d, member, found, result⟩
      · refine .inl ⟨nothing, ?_⟩
        intro d member
        rcases List.mem_cons.mp member with rfl | later
        · simpa using reply
        · exact others d later
      · exact .inr ⟨d, List.mem_cons_of_mem _ member, found, result⟩

theorem isProbe_probe (codec : PacketCodec) : IsProbe codec.probe := by
  obtain ⟨h, -, probing, -, bytes⟩ := codec.flagged
  rw [bytes]
  exact isProbe_of_flag probing

theorem isProbe_bridgePacket (codec : PacketCodec) : IsProbe (bridgePacket codec) := by
  obtain ⟨h, -, probing, -, bytes⟩ := codec.flagged
  have padded : bridgePacket codec = encode h [⟨0, 0, none, none⟩] := by
    rw [bridgePacket, bytes]
    simp [encode, encodeRecord, count, encodeSection]
  rw [padded]
  exact isProbe_of_flag probing

theorem acceptable_probe (codec : PacketCodec) :
    Acceptable codec.probe ∧ Acceptable (bridgePacket codec) := by
  obtain ⟨h, -, -, -, bytes⟩ := codec.flagged
  rw [bridgePacket, bytes]
  simp [Acceptable, encode, encodeHeader, ebMagic0, ebMagic1, ebBufLen]

theorem probe_reaches_host {bus : Bus σ} {s : σ} {requests : List Request} {mac : Mac}
    {ip : UInt32} {frames : List (List UInt8)}
    (sends : List.Forall₂ (Answers mac ip) ((serveAll bus s requests).2.filter (·.Answered)) frames)
    {host : Host} (known : host.mac ≠ Mac.zero) {r : Request} (arrived : r ∈ requests)
    (sender : FromHost host r) (probe : IsProbe r.data) : ∃ frame ∈ frames,
      ToHost host frame ∧ hostReads frame = (headerBytes true ++ be32 0, ip) := by
  obtain ⟨frame, sent, carries⟩ := probe_answered sends arrived (sender.mac ▸ known) probe
  rw [sender.mac, sender.ip, sender.port] at carries
  exact ⟨frame, sent, ⟨carries.destmac, carries.dstIp, carries.dstPort⟩,
    hostReads_carries carries (by decide)⟩

/-- Discovery finds the board. A probe to 255.255.255.255 is a request wherever the host is,
and the sweep probes the board if it is another host of the same /24. A probe that a serve
phase takes is answered with a probe reply from the leased address, and only a host that
sent a probe gets one. Whatever else of the phase the socket receives, and however often
and late, the search yields that address, or nothing if no probe reply comes. -/
theorem discovery_finds_board (codec : PacketCodec) (bus : Bus σ) (lease : Lease) (w : World σ)
    (free : w.ebPending = false) (host : Host) (known : host.mac ≠ Mac.zero) :
    (∀ here, limited ∈ broadcastTargets here ∧
      (lease.ip ∈ subnetCandidates host.ip netmask ↔ directed lease.ip = directed host.ip ∧
        lease.ip ≠ host.ip ∧ lease.ip ≠ host.ip &&& netmask ∧ lease.ip ≠ directed host.ip) ∧
      ∀ f, WellFormedUdp f → ipDst f = limited ∨ ipDst f = lease.ip →
        (datagram f).data = codec.probe → IsRequest lease.ip f) ∧
    ∃ seen, (serve bus lease w).trace = w.trace ++ seen ∧
      (∀ r ∈ (served lease w.inbox).2, FromHost host r → r.data = codec.probe →
        ∃ frame ∈ udpFrames seen, ToHost host frame ∧
          isProbeReply codec (hostReads frame).1 = true ∧ (hostReads frame).2 = lease.ip) ∧
      (∀ frame ∈ udpFrames seen, ToHost host frame → isProbeReply codec (hostReads frame).1 = true →
        ∃ r ∈ (served lease w.inbox).2, FromHost host r ∧ IsProbe r.data) ∧
      ∀ here accepts heard found, Receives codec host seen heard →
        found = (probeBroadcast codec here accepts heard).2 ∧
            (∃ target ∈ broadcastTargets here, accepts target = true) ∨
          found = (probeSweep codec (subnetCandidates host.ip netmask) accepts heard).2 →
        found = none ∧ (∀ d ∈ heard, isProbeReply codec d.1 = false) ∨ found = some lease.ip := by
  obtain ⟨-, -, seen, trace, behaves⟩ := serve_behaves bus lease free
  have sends := behaves.sends
  refine ⟨fun here => ⟨by simp [broadcastTargets], mem_subnetCandidates,
    fun f shape dst data => ?_⟩, seen, trace, ?_, ?_, ?_⟩
  · exact ⟨shape, dst.elim (.inr ∘ .inl) .inl, data ▸ (acceptable_probe codec).1⟩
  · intro r arrived sender probe
    obtain ⟨frame, sent, ours, read⟩ :=
      probe_reaches_host sends known arrived sender (probe ▸ isProbe_probe codec)
    refine ⟨frame, sent, ours, ?_, congrArg Prod.snd read⟩
    rw [read]
    exact isProbeReply_probe codec
  · intro frame sent ours reply
    obtain ⟨r, arrived, s, x, ran, told, read, sender⟩ := phase_answers served_fit sends sent
    rw [read] at reply
    exact ⟨r, arrived, sender host ours, (isProbeReply_reply codec bus ran told).mp reply⟩
  · intro here accepts heard found receives search
    have searched : found = listenFor codec heard := by
      rcases search with ⟨rfl, target, listed, accepted⟩ | rfl
      · have some : (broadcastTargets here).filter accepts ≠ [] :=
          List.ne_nil_of_mem (List.mem_filter.mpr ⟨listed, accepted⟩)
        rw [probeBroadcast]
        simp only [if_neg some]
      · rfl
    rw [searched]
    rcases listenFor_cases codec heard with nothing | ⟨d, member, reply, result⟩
    · exact .inl nothing
    · refine .inr (result.trans (congrArg _ ?_))
      rcases receives d member with noise | ⟨frame, sent, -, rfl⟩
      · rw [noise] at reply
        cases reply
      · obtain ⟨_, _, _, _, _, _, read, _⟩ := phase_answers served_fit sends sent
        exact congrArg Prod.snd read

/-- A codec that reads the magic and the flags. -/
def headerCodec : PacketCodec where
  probe := encode ⟨0x11, 0x44, 0⟩ []
  decode
    | m0 :: m1 :: flags :: _ => some (ofBe16 [m0, m1], decide (flags &&& ebPr ≠ 0))
    | _ => none
  flagged := ⟨⟨0x11, 0x44, 0⟩, rfl, by decide, by decide, rfl⟩
  header _ _ _ _ decoded := (Option.some.inj decoded).symm
  padded _ _ := Option.some_ne_none _

/-- The machine the frames of `frameTo` come from. -/
def peer : Host := ⟨0xc0a80102, srcMac (broadcastFrame probe), 1234⟩

/-- Broadcast to 255.255.255.255, the probe finds a board at 192.168.9.50. -/
theorem discovery_finds_other_subnet :
    ∃ seen frame, (serve ⟨fun _ _ => (0, ()), fun _ _ _ => ()⟩ ⟨0xc0a80932, 3⟩
        { listening with inbox := [some (frameTo limited 1234 1234 headerCodec.probe)] }).trace =
          seen ∧ frame ∈ udpFrames seen ∧ ToHost peer frame ∧
      (probeBroadcast headerCodec none (fun _ => true) [hostReads frame]).2 = some 0xc0a80932 := by
  obtain ⟨-, seen, trace, answered, -, finds⟩ := discovery_finds_board headerCodec
    (⟨fun _ _ => (0, ()), fun _ _ _ => ()⟩ : Bus Unit) ⟨0xc0a80932, 3⟩
    { listening with inbox := [some (frameTo limited 1234 1234 headerCodec.probe)] } rfl peer
    (by decide)
  have arrived : requestOf (frameTo limited 1234 1234 headerCodec.probe) ∈ (served ⟨0xc0a80932, 3⟩
      [some (frameTo limited 1234 1234 headerCodec.probe)]).2 := by decide +kernel
  obtain ⟨frame, sent, ours, reply, -⟩ := answered _ arrived
    ⟨by decide +kernel, by decide +kernel, by decide +kernel⟩ (by decide +kernel)
  refine ⟨seen, frame, trace, sent, ours, ?_⟩
  have result := finds none (fun _ => true) [hostReads frame] _
    (fun d member => .inr ⟨frame, sent, ours, List.mem_singleton.mp member⟩)
    (.inl ⟨rfl, limited, by decide, rfl⟩)
  rcases result with ⟨-, none⟩ | found
  · rw [none _ List.mem_cons_self] at reply
    cases reply
  · exact found

/-! ## The bridge -/

theorem bridgeProbe_unanswered (codec : PacketCodec) (left : Nat)
    {windows : List (List (List UInt8))}
    (unanswered : ∀ window ∈ windows, repliesWithin codec window = false) :
    bridgeProbe codec left windows = (left, false) := by
  induction left generalizing windows with
  | zero => rfl
  | succ left ih =>
    have first : repliesWithin codec (windows.headD []) = false := by
      cases windows with
      | nil => rfl
      | cons window rest => exact unanswered window List.mem_cons_self
    have rest := ih fun window member => unanswered window (List.mem_of_mem_tail member)
    rw [bridgeProbe, first, rest]
    rfl

theorem bridgeProbe_answered (codec : PacketCodec) {left : Nat}
    {windows : List (List (List UInt8))} {window : List (List UInt8)}
    (listened : window ∈ windows.take left) (reply : repliesWithin codec window = true) :
    (bridgeProbe codec left windows).2 = true := by
  induction left generalizing windows with
  | zero => cases listened
  | succ left ih =>
    rw [bridgeProbe]
    split
    · rfl
    next none =>
      cases windows with
      | nil => cases listened
      | cons first rest =>
        rcases List.mem_cons.mp listened with rfl | later
        · exact absurd reply none
        · exact ih later

/-- What discovery takes for a probe reply, the bridge does as well. -/
theorem repliesWithin_of_reply {codec : PacketCodec} {window : List (List UInt8)}
    {data : List UInt8} (member : data ∈ window) (reply : isProbeReply codec data = true) :
    repliesWithin codec window = true := by
  refine List.any_eq_true.mpr ⟨data, member, ?_⟩
  rw [isProbeReply] at reply
  split at reply
  next magic pr decoded =>
    rw [decoded]
    exact (Bool.and_eq_true_iff.mp reply).2
  next => cases reply

/-- The bridge reaches the board from its own /24 alone. A request it sends, to the /24
broadcast address of its machine, is one of the board's exactly there. A probe that is
served gets an answer which ends the probing in whatever window it arrives. From any other
network no serve phase sends its socket anything, and all three probes go unanswered. -/
theorem bridge_needs_own_subnet (codec : PacketCodec) (bus : Bus σ) (lease : Lease) (w : World σ)
    (free : w.ebPending = false) (host : Host) (known : host.mac ≠ Mac.zero)
    (directs : ∀ f, some f ∈ w.inbox → FromHost host (requestOf f) →
      ipDst f = broadcastAddr (some host.ip)) :
    (∀ f, WellFormedUdp f → ipDst f = broadcastAddr (some host.ip) →
      (IsRequest lease.ip f ↔ Acceptable (datagram f).data ∧
        (directed host.ip = directed lease.ip ∨ directed host.ip = limited))) ∧
    ∃ seen, (serve bus lease w).trace = w.trace ++ seen ∧
      (∀ r ∈ (served lease w.inbox).2, FromHost host r → r.data = bridgePacket codec →
        ∃ frame ∈ udpFrames seen, ToHost host frame ∧ ∀ windows, ∀ window ∈ windows.take 3,
          (hostReads frame).1 ∈ window → (bridgeProbe codec 3 windows).2 = true) ∧
      (directed host.ip ≠ directed lease.ip → directed host.ip ≠ limited →
        (∀ frame ∈ udpFrames seen, ¬ ToHost host frame) ∧
        ∀ windows : List (List (List UInt8)), (∀ window ∈ windows, ∀ data ∈ window,
          (codec.decode data).any Prod.snd = false ∨
            ∃ frame ∈ udpFrames seen, ToHost host frame ∧ data = (hostReads frame).1) →
          bridgeProbe codec 3 windows = (3, false)) := by
  have reach : ∀ f, WellFormedUdp f → ipDst f = broadcastAddr (some host.ip) →
      (IsRequest lease.ip f ↔ Acceptable (datagram f).data ∧
        (directed host.ip = directed lease.ip ∨ directed host.ip = limited)) := by
    intro f shape dst
    have addressed : AddressedTo lease.ip (ipDst f) ↔
        directed host.ip = directed lease.ip ∨ directed host.ip = limited := by
      rw [dst]
      exact addressedTo_directed
    exact ⟨fun request => ⟨request.acceptable, addressed.mp request.addressed⟩,
      fun ⟨acceptable, near⟩ => ⟨shape, addressed.mpr near, acceptable⟩⟩
  obtain ⟨-, -, seen, trace, behaves⟩ := serve_behaves bus lease free
  have sends := behaves.sends
  refine ⟨reach, seen, trace, ?_, ?_⟩
  · intro r arrived sender probe
    obtain ⟨frame, sent, ours, read⟩ :=
      probe_reaches_host sends known arrived sender (probe ▸ isProbe_bridgePacket codec)
    refine ⟨frame, sent, ours, fun windows window listened member => ?_⟩
    rw [read] at member
    exact bridgeProbe_answered codec listened
      (repliesWithin_of_reply member (isProbeReply_probe codec))
  · intro other unlimited
    have unsent : ∀ frame ∈ udpFrames seen, ¬ ToHost host frame := by
      intro frame sent ours
      obtain ⟨r, arrived, _, _, _, _, _, sender⟩ := phase_answers served_fit sends sent
      obtain ⟨f, member, request, rfl⟩ := phase_origin arrived
      have near := ((reach f request.shape (directs f member (sender host ours))).mp request).2
      exact near.elim other unlimited
    refine ⟨unsent, fun windows noise => bridgeProbe_unanswered codec 3 fun window member => ?_⟩
    refine List.any_eq_false.mpr fun data heard => ?_
    rcases noise window member data heard with quiet | ⟨frame, sent, ours, -⟩
    · simp [quiet]
    · exact absurd ours (unsent frame sent)

/-- The same machine as a bridge: a board at 192.168.1.50 answers it, one at 192.168.9.50
never. -/
theorem bridge_needs_own_subnet_peer :
    (∃ seen frame, (serve ⟨fun _ _ => (0, ()), fun _ _ _ => ()⟩ ⟨0xc0a80132, 3⟩ listening).trace =
      seen ∧ frame ∈ udpFrames seen ∧
        (bridgeProbe headerCodec 3 [[], [(hostReads frame).1]]).2 = true) ∧
    ∃ seen, (serve ⟨fun _ _ => (0, ()), fun _ _ _ => ()⟩ ⟨0xc0a80932, 3⟩ listening).trace =
      seen ∧ ∀ frame ∈ udpFrames seen, ¬ ToHost peer frame := by
  have directs : ∀ f, some f ∈ listening.inbox → FromHost peer (requestOf f) →
      ipDst f = broadcastAddr (some peer.ip) := by
    intro f member _
    obtain rfl := Option.some.inj (List.mem_singleton.mp member)
    decide +kernel
  constructor
  · obtain ⟨-, seen, trace, answered, -⟩ := bridge_needs_own_subnet headerCodec
      (⟨fun _ _ => (0, ()), fun _ _ _ => ()⟩ : Bus Unit) ⟨0xc0a80132, 3⟩ listening rfl peer
      (by decide) directs
    have arrived : requestOf (broadcastFrame probe) ∈
        (served ⟨0xc0a80132, 3⟩ listening.inbox).2 := by decide +kernel
    obtain ⟨frame, sent, -, ends⟩ := answered _ arrived
      ⟨by decide +kernel, by decide +kernel, by decide +kernel⟩ (by decide +kernel)
    exact ⟨seen, frame, trace, sent, ends _ [(hostReads frame).1] (by simp) List.mem_cons_self⟩
  · obtain ⟨-, seen, trace, -, unanswered⟩ := bridge_needs_own_subnet headerCodec
      (⟨fun _ _ => (0, ()), fun _ _ _ => ()⟩ : Bus Unit) ⟨0xc0a80932, 3⟩ listening rfl peer
      (by decide) directs
    exact ⟨seen, trace, (unanswered (by decide) (by decide)).1⟩

end Remote8008.Guarantees.ProbeReach
