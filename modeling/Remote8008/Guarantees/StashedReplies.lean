import Remote8008.Guarantees.DhcpOptions
import Remote8008.Guarantees.LeaseExchange

/-!
# What the stash of a reply leaves out

firmware/main.c:63-78,138-159 with dhcp8008.c:159-221. `rx_msgbuf` keeps the first 364
bytes of a reply, and the parser takes the options that are complete in the bytes it is
given. A reply may be longer: the options behind byte 364 are then not there for it, and
the last message type, server identifier or lease time before them decides.
-/

namespace Remote8008.Guarantees.StashedReplies
open Source.Firmware Source.UdpReceive Source.Main Source.Dhcp8008 Source.Eb8008
open DhcpOptions LeaseExchange

variable {σ : Type}

/-- The bytes of `rx_msgbuf` behind the header. -/
def optionRoom : Nat := rxMsgbufSize - dhcpOptionsOffset

/-- Both parsers return the same verdict for two buffers and write the same. -/
structure ReadsAlike (buf payload : List UInt8) (xid : UInt32) : Prop where
  offer : ∀ out, dhcpParseOfferInto buf xid out = dhcpParseOfferInto payload xid out
  ack : ∀ ip leaseSecs,
    dhcpParseAckInto buf xid ip leaseSecs = dhcpParseAckInto payload xid ip leaseSecs

/-- The first options of a reply decide about it as all of them do. -/
structure Decided (early all : List TlvOption) : Prop where
  offer : messageType early = some dhcpMsgOffer ↔ messageType all = some dhcpMsgOffer
  ack : messageType early = some dhcpMsgAck ↔ messageType all = some dhcpMsgAck
  server : messageType all = some dhcpMsgOffer →
    addressOption dhcpOptServerId early = addressOption dhcpOptServerId all
  lease : messageType all = some dhcpMsgOffer ∨ messageType all = some dhcpMsgAck →
    addressOption dhcpOptLeaseTime early = addressOption dhcpOptLeaseTime all

/-! ## Replies -/

theorem verdict_eq_iff {p q : Prop} [Decidable p] [Decidable q] {out a b : Outputs} :
    (Except.ok (if p then (1, a) else (0, out)) : Except Fault (Nat × Outputs)) =
      .ok (if q then (1, b) else (0, out)) ↔ (p ↔ q) ∧ (q → a = b) := by
  by_cases first : p
  · by_cases second : q
    · simp [first, second]
    · simp [first, second]
  · by_cases second : q
    · simp [first, second]
    · simp [first, second]

section
variable (r : BootReply) (items : List Item) (trailing : List UInt8) (m n : Nat)

/-- The reply with its options cut after `n` bytes. -/
def cutReply : List UInt8 := encodeReply r ++ (encodeItems items trailing).take n

theorem cutReply_take (room : Nat) :
    (cutReply r items trailing n).take (dhcpOptionsOffset + room) =
      cutReply r items trailing (min n room) := by
  rw [cutReply, cutReply, ← encodeReply_length r, List.take_length_add_append, List.take_take,
    Nat.min_comm]

theorem offers_alike_iff :
    (∀ out, dhcpParseOfferInto (cutReply r items trailing m) r.xid out =
      dhcpParseOfferInto (cutReply r items trailing n) r.xid out) ↔
    (messageType (complete m items) = some dhcpMsgOffer ↔
      messageType (complete n items) = some dhcpMsgOffer) ∧
    (messageType (complete n items) = some dhcpMsgOffer →
      addressOption dhcpOptServerId (complete m items) =
        addressOption dhcpOptServerId (complete n items) ∧
      addressOption dhcpOptLeaseTime (complete m items) =
        addressOption dhcpOptLeaseTime (complete n items)) := by
  simp only [dhcpParseOfferInto, cutReply, parseReplyInto_reply, verdict_eq_iff]
  constructor
  · intro same
    have all := same ⟨some 0, some 0, some 0⟩
    refine ⟨all.1, fun offered => ?_⟩
    simpa [Outputs.write] using all.2 offered
  · intro same out
    refine ⟨same.1, fun offered => ?_⟩
    obtain ⟨server, lease⟩ := same.2 offered
    rw [server, lease]

theorem acks_alike_iff :
    (∀ ip leaseSecs, dhcpParseAckInto (cutReply r items trailing m) r.xid ip leaseSecs =
      dhcpParseAckInto (cutReply r items trailing n) r.xid ip leaseSecs) ↔
    (messageType (complete m items) = some dhcpMsgAck ↔
      messageType (complete n items) = some dhcpMsgAck) ∧
    (messageType (complete n items) = some dhcpMsgAck →
      addressOption dhcpOptLeaseTime (complete m items) =
        addressOption dhcpOptLeaseTime (complete n items)) := by
  simp only [dhcpParseAckInto, cutReply, parseReplyInto_reply, verdict_eq_iff]
  constructor
  · intro same
    have all := same (some 0) (some 0)
    refine ⟨all.1, fun acked => ?_⟩
    simpa [Outputs.write] using all.2 acked
  · intro same ip leaseSecs
    refine ⟨same.1, fun acked => ?_⟩
    simp [Outputs.write, same.2 acked]

theorem readsAlike_iff :
    ReadsAlike (cutReply r items trailing m) (cutReply r items trailing n) r.xid ↔
      Decided (complete m items) (complete n items) := by
  constructor
  · intro alike
    obtain ⟨offer, offered⟩ := (offers_alike_iff r items trailing m n).mp alike.offer
    obtain ⟨ack, acked⟩ := (acks_alike_iff r items trailing m n).mp alike.ack
    exact ⟨offer, ack, fun type => (offered type).1,
      fun type => type.elim (fun type => (offered type).2) acked⟩
  · intro decided
    constructor
    · exact (offers_alike_iff r items trailing m n).mpr
        ⟨decided.offer, fun type => ⟨decided.server type, decided.lease (.inl type)⟩⟩
    · exact (acks_alike_iff r items trailing m n).mpr
        ⟨decided.ack, fun type => decided.lease (.inr type)⟩

end

/-! ## Other payloads -/

theorem wordAt_take {buf : List UInt8} {off k : Nat} (inside : off + 4 ≤ k) :
    wordAt (buf.take k) off = wordAt buf off := by
  rw [wordAt, wordAt, List.drop_take, List.take_take, Nat.min_eq_left (by omega)]

/-- The stash keeps the header. -/
theorem header_of_stash {payload : List UInt8} {xid : UInt32}
    (header : HeaderFor xid (payload.take rxMsgbufSize)) : HeaderFor xid payload := by
  have size : rxMsgbufSize = 364 := rfl
  constructor
  · exact header.long.trans (List.length_take_le' _ _)
  · have first := header.op
    rwa [List.getElem?_take_of_lt (by decide)] at first
  · rw [← header.xid, wordAt_take (by omega)]
  · rw [← header.cookie, wordAt_take (by omega)]

theorem readsAlike_foreign {payload : List UInt8} {xid : UInt32}
    (foreign : ¬ HeaderFor xid payload) :
    ReadsAlike (payload.take rxMsgbufSize) payload xid := by
  have refused : ∀ want out, parseReplyInto payload xid want out = .ok (0, out) :=
    fun want out => parseReplyInto_ok (parseReply_foreign foreign want) out
  have stashRefused : ∀ want out,
      parseReplyInto (payload.take rxMsgbufSize) xid want out = .ok (0, out) :=
    fun want out => parseReplyInto_ok
      (parseReply_foreign (fun header => foreign (header_of_stash header)) want) out
  constructor
  · intro out
    exact (stashRefused _ out).trans (refused _ out).symm
  · intro ip leaseSecs
    exact (stashRefused _ _).trans (refused _ _).symm

/-! ## The stash -/

/-- What `dhcp_run` finds after a payload came from the server port. -/
def stashed (w : World σ) (srcIp : UInt32) (payload : List UInt8) : List UInt8 :=
  stashedReply (dhcpRxCallback w ⟨srcIp, dhcpServerPort, dhcpClientPort, payload⟩)

theorem stashed_eq (w : World σ) (srcIp : UInt32) (payload : List UInt8) :
    stashed w srcIp payload = payload.take rxMsgbufSize :=
  (dhcpRxCallback_stashes w (d := ⟨srcIp, dhcpServerPort, dhcpClientPort, payload⟩)
    ⟨rfl, rfl⟩).2

/-- For a payload of any length: under every transaction id both parsers read the stash as
they read the payload exactly when the options that are complete in the first 124 bytes
decide about it as all its options do. -/
theorem stash_reads_alike_iff (w : World σ) (srcIp : UInt32) (payload : List UInt8) :
    (∀ xid, ReadsAlike (stashed w srcIp payload) payload xid) ↔
      ∀ r items trailing n, payload = cutReply r items trailing n →
        Decided (complete (min n optionRoom) items) (complete n items) := by
  rw [stashed_eq]
  have room : rxMsgbufSize = dhcpOptionsOffset + optionRoom := rfl
  constructor
  · intro alike r items trailing n reply
    have own := alike r.xid
    rw [reply, room, cutReply_take] at own
    exact (readsAlike_iff r items trailing _ n).mp own
  · intro decided xid
    by_cases header : HeaderFor xid payload
    · obtain ⟨r, items, trailing, n, same, reply⟩ := exists_reply header
      have reply : payload = cutReply r items trailing n := reply
      rw [← same, reply, room, cutReply_take]
      exact (readsAlike_iff r items trailing _ n).mpr (decided r items trailing n reply)
    · exact readsAlike_foreign header

/-! ## Long replies -/

/-- A reply of 192.168.1.2 that gives 192.168.1.50. -/
def replyWith (xid : UInt32) (options : List UInt8) : List UInt8 :=
  [2, 1, 6, 0] ++ Lib.BigEndian.be32 xid ++ List.replicate 8 0 ++ Lib.BigEndian.be32 0xc0a80132 ++
    List.replicate 216 0 ++ Lib.BigEndian.be32 dhcpMagicCookie ++ options

def vendorOption : List UInt8 := putOption 43 (List.replicate 116 7)

/-- An offer whose lease time of a day comes behind 116 bytes for the vendor. -/
def lateLease (xid : UInt32) : List UInt8 :=
  replyWith xid
    ([53, 1, 2, 54, 4, 192, 168, 1, 2] ++ vendorOption ++ [51, 4, 0, 1, 0x51, 0x80, 255])

/-- An offer whose message type comes last. -/
def lateType (xid : UInt32) : List UInt8 :=
  replyWith xid
    ([54, 4, 192, 168, 1, 2, 51, 4, 0, 1, 0x51, 0x80] ++ vendorOption ++ [53, 1, 2, 255])

/-- Two offers of less than 400 bytes: one loses its lease time in the stash, the other is
taken for no offer. -/
theorem long_offer_misread :
    (lateLease 7).length ≤ 548 ∧ (lateType 7).length ≤ 548 ∧
    dhcpParseOfferInto (lateLease 7) 7 ⟨some 0, some 0, some 0⟩ =
      .ok (1, ⟨some 0xc0a80132, some 0xc0a80102, some 86400⟩) ∧
    dhcpParseOfferInto (stashed RequestServer.listening 0xc0a80102 (lateLease 7)) 7
      ⟨some 0, some 0, some 0⟩ = .ok (1, ⟨some 0xc0a80132, some 0xc0a80102, some 0⟩) ∧
    dhcpParseOfferInto (lateType 7) 7 ⟨some 0, some 0, some 0⟩ =
      .ok (1, ⟨some 0xc0a80132, some 0xc0a80102, some 86400⟩) ∧
    dhcpParseOfferInto (stashed RequestServer.listening 0xc0a80102 (lateType 7)) 7
      ⟨some 0, some 0, some 0⟩ = .ok (0, ⟨some 0, some 0, some 0⟩) := by
  rw [stashed_eq, stashed_eq]
  decide +kernel

end Remote8008.Guarantees.StashedReplies
