import Remote8008.Guarantees.EtherbonePacket
import Remote8008.Source.EbServe

/-!
# The Etherbone server on arbitrary bytes

firmware/eb8008.c:71-132. Every byte string is a prefix of some sequence of records:
the counts read from it say how many words each section would have, and whatever is
missing can be completed. The result on truncated packets therefore covers every
request, and the handler neither faults nor produces a reply much longer than the
request.
-/

namespace Remote8008.Guarantees.EtherboneTotal
open Lib.BigEndian Source.Eb8008 Source.EbServe Source.EtherboneWire EtherbonePacket

/-! ## Every byte string starts some record sequence -/

/-- Either the bytes run out inside `body`, or they go past it. -/
def Covers (body bytes : List UInt8) : Prop := bytes <+: body ∨ ∃ rest, bytes = body ++ rest

theorem exists_words (n : Nat) (bytes : List UInt8) :
    ∃ words : List UInt32, words.length = n ∧ Covers (words.flatMap be32) bytes := by
  induction n generalizing bytes with
  | zero => exact ⟨[], rfl, .inr ⟨bytes, rfl⟩⟩
  | succ n ih =>
    match bytes with
    | b0 :: b1 :: b2 :: b3 :: rest =>
      obtain ⟨words, length, cover⟩ := ih rest
      refine ⟨ofBe32 [b0, b1, b2, b3] :: words, by simp [length], ?_⟩
      have word : be32 (ofBe32 [b0, b1, b2, b3]) = [b0, b1, b2, b3] := be32_ofBe32 _ rfl
      rw [List.flatMap_cons, word]
      rcases cover with ends | ⟨more, rfl⟩
      · exact .inl (by simpa using ends)
      · exact .inr ⟨more, by simp⟩
    | [] => exact ⟨List.replicate (n + 1) 0, by simp, .inl (List.nil_prefix)⟩
    | [b0] =>
      refine ⟨ofBe32 [b0, 0, 0, 0] :: List.replicate n 0, by simp, .inl ?_⟩
      rw [List.flatMap_cons, be32_ofBe32 _ rfl]
      exact ⟨_, rfl⟩
    | [b0, b1] =>
      refine ⟨ofBe32 [b0, b1, 0, 0] :: List.replicate n 0, by simp, .inl ?_⟩
      rw [List.flatMap_cons, be32_ofBe32 _ rfl]
      exact ⟨_, rfl⟩
    | [b0, b1, b2] =>
      refine ⟨ofBe32 [b0, b1, b2, 0] :: List.replicate n 0, by simp, .inl ?_⟩
      rw [List.flatMap_cons, be32_ofBe32 _ rfl]
      exact ⟨_, rfl⟩

theorem exists_section (wanted : UInt8) (bytes : List UInt8) :
    ∃ s : Option Section, count s = wanted ∧ Covers (encodeSection s) bytes := by
  by_cases none : wanted = 0
  · exact ⟨.none, none ▸ rfl, .inr ⟨bytes, rfl⟩⟩
  · obtain ⟨words, length, cover⟩ := exists_words (1 + wanted.toNat) bytes
    have positive : 0 < wanted.toNat := by
      rcases Nat.eq_zero_or_pos wanted.toNat with zero | positive
      · exact absurd (UInt8.toNat_inj.mp zero) none
      · exact positive
    have bounded := wanted.toNat_lt
    cases words with
    | nil =>
      simp only [List.length_nil] at length
      omega
    | cons head items =>
      have itemCount : items.length = wanted.toNat := by
        simp only [List.length_cons] at length
        omega
      refine ⟨some ⟨head, items, by omega, by omega⟩, ?_, cover⟩
      simp [count, itemCount]

theorem exists_records (bytes : List UInt8) :
    ∃ rs : List Record, bytes <+: rs.flatMap encodeRecord := by
  -- the length drops by at least the record header
  induction hlength : bytes.length using Nat.strong_induction_on generalizing bytes with
  | _ length ih =>
    match bytes with
    | [] => exact ⟨[], List.prefix_rfl⟩
    | [flags] => exact ⟨[⟨flags, 0, none, none⟩], ⟨_, rfl⟩⟩
    | [flags, byteEnable] => exact ⟨[⟨flags, byteEnable, none, none⟩], ⟨_, rfl⟩⟩
    | [flags, byteEnable, wcount] =>
      obtain ⟨writes, rfl, -⟩ := exists_section wcount []
      refine ⟨[⟨flags, byteEnable, writes, none⟩], ?_⟩
      simp [encodeRecord]
    | flags :: byteEnable :: wcount :: rcount :: rest =>
      obtain ⟨writes, rfl, wcover⟩ := exists_section wcount rest
      rcases wcover with wends | ⟨afterWrites, rfl⟩
      · obtain ⟨reads, rfl, -⟩ := exists_section rcount []
        refine ⟨[⟨flags, byteEnable, writes, reads⟩], ?_⟩
        simpa [encodeRecord] using wends.trans (List.prefix_append _ _)
      · obtain ⟨reads, rfl, rcover⟩ := exists_section rcount afterWrites
        rcases rcover with rends | ⟨afterReads, rfl⟩
        · refine ⟨[⟨flags, byteEnable, writes, reads⟩], ?_⟩
          simpa [encodeRecord] using rends
        · obtain ⟨rs, tail⟩ := ih afterReads.length (by simp at hlength; omega) afterReads rfl
          refine ⟨⟨flags, byteEnable, writes, reads⟩ :: rs, ?_⟩
          simpa [encodeRecord] using tail

/-- Every request with the magic is a truncated packet. -/
theorem exists_packet (req : List UInt8) (long : 8 ≤ req.length)
    (magic0 : req[0]? = some ebMagic0) (magic1 : req[1]? = some ebMagic1) :
    ∃ h rs, req = (encode h rs).take req.length ∧ req.length ≤ (encode h rs).length ∧
      req[2]? = some h.flags := by
  match req with
  | m0 :: m1 :: flags :: sizes :: b0 :: b1 :: b2 :: b3 :: rest =>
    obtain ⟨rs, cut⟩ := exists_records rest
    obtain rfl : m0 = ebMagic0 := by simpa using magic0
    obtain rfl : m1 = ebMagic1 := by simpa using magic1
    have reserved : be32 (ofBe32 [b0, b1, b2, b3]) = [b0, b1, b2, b3] := be32_ofBe32 _ rfl
    have start : (ebMagic0 :: ebMagic1 :: flags :: sizes :: b0 :: b1 :: b2 :: b3 :: rest) <+:
        encode ⟨flags, sizes, ofBe32 [b0, b1, b2, b3]⟩ rs := by
      simpa [encode, encodeHeader, reserved, ebMagic0, ebMagic1] using cut
    exact ⟨_, rs, List.prefix_iff_eq_take.mp start, start.length_le, rfl⟩

/-! ## Size of the reply -/

/-- Bytes a part contributes to the reply. -/
def answerSize : Part → Nat
  | .writes _ => 0
  | .reads s => 4 + s.size

theorem performAll_answers_size {σ : Type} (bus : Bus σ) (ps : List Part) (v : View σ) :
    ((performAll bus ps v).answers.flatMap encodeAnswer).length =
      (v.answers.flatMap encodeAnswer).length + (ps.map answerSize).sum := by
  induction ps generalizing v with
  | nil => simp [performAll]
  | cons p rest ih =>
    have later := ih (v.perform bus p)
    simp only [performAll, List.foldl_cons] at later ⊢
    rw [later]
    cases p with
    | writes s => simp [View.perform, writeAll_answers, answerSize]
    | reads s =>
      have words := readAll_length bus s.items v
      simp only [View.perform, readAll_answers, List.flatMap_append, List.flatMap_cons,
        List.flatMap_nil, List.append_nil, List.length_append, encodeAnswer, List.length_cons,
        List.length_nil, be32_length, flatMap_be32_length, words, List.map_cons, List.sum_cons,
        answerSize, Section.size]
      omega

/-- The answers to the sections within the first `n` bytes fit in the bytes those
records take. -/
theorem completed_answerSize (n offset : Nat) (rs : List Record) :
    offset + ((((parts offset rs).filter fun part => decide (part.2 ≤ n)).map Prod.fst).map
      answerSize).sum ≤ max n offset := by
  induction rs generalizing offset with
  | nil => simp [parts]
  | cons r rest ih =>
    have later := ih (offset + r.size)
    have writesSum : ((r.writes.toList.map Part.writes).map answerSize).sum = 0 := by
      cases r.writes <;> simp [answerSize]
    have readsSum : ((r.reads.toList.map Part.reads).map answerSize).sum ≤
        4 + sectionSize r.reads := by
      cases r.reads <;> simp [answerSize, sectionSize]
    have size : r.size = 4 + sectionSize r.writes + sectionSize r.reads := rfl
    rw [filter_parts_cons, List.map_append, List.map_append, List.sum_append, List.sum_append]
    split <;> split <;> simp only [writesSum, List.map_nil, List.sum_nil] <;> omega

/-- The reply to the sections within the first `n` bytes. -/
theorem replyBytes_length_le {σ : Type} (bus : Bus σ) (n : Nat) (rs : List Record) (s : σ) :
    (replyBytes (performAll bus (completed n rs) ⟨s, [], []⟩).answers).length ≤ max n 8 := by
  have answers := performAll_answers_size bus (completed n rs) ⟨s, [], []⟩
  have sections := completed_answerSize n 8 rs
  unfold replyBytes
  split
  · simp
  · simp only [completed, List.flatMap_nil, List.length_nil] at answers
    simp only [headerBytes, List.length_append, List.length_cons, List.length_nil, completed,
      answers]
    omega

/-! ## Every request -/

/-- A request that passes the first test of the handler. -/
structure IsEtherbone (req : List UInt8) : Prop where
  long : 8 ≤ req.length
  magic0 : req[0]? = some ebMagic0
  magic1 : req[1]? = some ebMagic1

/-- A request that the handler takes for a probe. -/
structure IsProbe (req : List UInt8) : Prop where
  etherbone : IsEtherbone req
  flag : ∃ flags, req[2]? = some flags ∧ flags &&& ebPf ≠ 0

theorem eb8008Handle_foreign {σ : Type} (bus : Bus σ) {req : List UInt8} (s : σ)
    (foreign : ¬ IsEtherbone req) :
    eb8008Handle bus req s = .ok ⟨s, [], fun _ => none, 0⟩ := by
  by_cases tiny : req.length < 8
  · rw [eb8008Handle, if_pos tiny]
  · match req with
    | [] | [_] => simp at tiny
    | m0 :: m1 :: rest =>
      have other : m0 ≠ ebMagic0 ∨ m1 ≠ ebMagic1 := by
        by_contra same
        rw [not_or, not_not, not_not] at same
        exact foreign ⟨Nat.not_lt.mp tiny, congrArg some same.1, congrArg some same.2⟩
      rw [eb8008Handle, if_neg tiny]
      exact if_pos other

theorem eb8008Handle_magic {σ : Type} (bus : Bus σ) {m0 m1 flags : UInt8} {rest : List UInt8}
    (s : σ) (etherbone : IsEtherbone (m0 :: m1 :: flags :: rest)) :
    eb8008Handle bus (m0 :: m1 :: flags :: rest) s =
      if flags &&& ebPf ≠ 0 then
        .ok ⟨s, [], putBe32 (putHeader (fun _ => none) 0 true) 8 0, 12⟩
      else recordLoop bus (m0 :: m1 :: flags :: rest) (rest.length + 4) 8
        ⟨s, [], fun _ => none, 0⟩ := by
  obtain ⟨long, magic0, magic1⟩ := etherbone
  have passes : ¬ (m0 ≠ ebMagic0 ∨ m1 ≠ ebMagic1) := by
    rw [not_or, not_not, not_not]
    exact ⟨by simpa using magic0, by simpa using magic1⟩
  rw [eb8008Handle, if_neg (Nat.not_lt.mpr long)]
  exact if_neg passes

theorem eb8008Handle_probe {σ : Type} (bus : Bus σ) {req : List UInt8} (s : σ)
    (probe : IsProbe req) :
    eb8008Handle bus req s =
      .ok ⟨s, [], putBe32 (putHeader (fun _ => none) 0 true) 8 0, 12⟩ := by
  obtain ⟨etherbone, flags, third, flag⟩ := probe
  match req with
  | [] | [_] | [_, _] => simp at third
  | m0 :: m1 :: flags' :: rest =>
    have same : flags' = flags := by simpa using third
    rw [eb8008Handle_magic bus s etherbone, same, if_pos flag]

/-- A request that is no probe is answered for the sections it completes. -/
theorem eb8008Handle_records {σ : Type} (bus : Bus σ) {req : List UInt8} (s : σ)
    (etherbone : IsEtherbone req) (request : ¬ IsProbe req) :
    ∃ h rs x, req = (encode h rs).take req.length ∧ eb8008Handle bus req s = .ok x ∧
      Refines x (performAll bus (completed req.length rs) ⟨s, [], []⟩)
        (replyBytes (performAll bus (completed req.length rs) ⟨s, [], []⟩).answers) := by
  obtain ⟨h, rs, packet, short, third⟩ :=
    exists_packet req etherbone.long etherbone.magic0 etherbone.magic1
  have pfClear : h.flags &&& ebPf = 0 := by
    by_contra set
    exact request ⟨etherbone, h.flags, third, set⟩
  obtain ⟨x, ran, rel⟩ := eb8008Handle_refines bus h pfClear rs _ short s
  rw [← packet] at ran
  exact ⟨h, rs, x, packet, ran, rel⟩

/-- What the handler does with any request: nothing, a probe reply, or the sections
that the request completes. -/
inductive Outcome {σ : Type} (bus : Bus σ) (req : List UInt8) (s : σ) (x : Exec σ) : Prop where
  | ignored (state : x.bus = s) (quiet : x.accesses = []) (silent : x.reply = [])
  | probe (state : x.bus = s) (quiet : x.accesses = [])
      (reply : x.reply = headerBytes true ++ be32 0)
  | records (h : Header) (rs : List Record) (packet : req = (encode h rs).take req.length)
      (state : x.bus = (performAll bus (completed req.length rs) ⟨s, [], []⟩).bus)
      (made : x.accesses = (performAll bus (completed req.length rs) ⟨s, [], []⟩).accesses)
      (reply : x.reply =
        replyBytes (performAll bus (completed req.length rs) ⟨s, [], []⟩).answers)

/-- The cells of the reply buffer that are written are those of the reply. -/
def Filled {σ : Type} (x : Exec σ) : Prop := ∀ i, (x.resp i).isSome = true ↔ i < x.respLen

theorem filled_of_refines {σ : Type} {x : Exec σ} {v : View σ} {bytes : List UInt8}
    (rel : Refines x v bytes) : Filled x := by
  intro i
  rw [rel.resp, rel.respLen]
  simp

theorem filled_probe {σ : Type} (s : σ) :
    Filled (⟨s, [], putBe32 (putHeader (fun _ => none) 0 true) 8 0, 12⟩ : Exec σ) := by
  have header : putHeader (fun _ => none) 0 true = fun i => (headerBytes true)[i]? :=
    putBytes_end [] (headerBytes true)
  have cells : putBe32 (putHeader (fun _ => none) 0 true) 8 0 =
      fun i => (headerBytes true ++ be32 0)[i]? := by
    rw [header]
    exact putBytes_end (headerBytes true) (be32 0)
  intro i
  rw [cells]
  simp [headerBytes]

/-- The handler always returns, with exactly the bytes of its reply written. -/
theorem eb8008Handle_filled {σ : Type} (bus : Bus σ) (req : List UInt8) (s : σ) :
    ∃ x, eb8008Handle bus req s = .ok x ∧ Outcome bus req s x ∧ Filled x ∧
      (¬ IsProbe req → x.respLen ≤ req.length) := by
  by_cases etherbone : IsEtherbone req
  · by_cases probe : IsProbe req
    · exact ⟨_, eb8008Handle_probe bus s probe, .probe rfl rfl rfl, filled_probe s,
        fun request => absurd probe request⟩
    · obtain ⟨h, rs, x, packet, ran, rel⟩ := eb8008Handle_records bus s etherbone probe
      refine ⟨x, ran, .records h rs packet rel.bus rel.accesses (reply_of_refines x _ _ rel),
        filled_of_refines rel, fun _ => ?_⟩
      have bound := replyBytes_length_le bus req.length rs s
      have long := etherbone.long
      rw [rel.respLen]
      omega
  · exact ⟨_, eb8008Handle_foreign bus s etherbone, .ignored rfl rfl rfl, by simp [Filled],
      fun _ => Nat.zero_le _⟩

theorem eb8008Handle_outcome {σ : Type} (bus : Bus σ) (req : List UInt8) (s : σ) :
    ∃ x, eb8008Handle bus req s = .ok x ∧ Outcome bus req s x ∧
      ∀ i < x.respLen, (x.resp i).isSome = true := by
  obtain ⟨x, ran, outcome, filled, -⟩ := eb8008Handle_filled bus req s
  exact ⟨x, ran, outcome, fun i => (filled i).mpr⟩

/-- A reply is at most four bytes longer than its request. -/
theorem Outcome.reply_length {σ : Type} {bus : Bus σ} {req : List UInt8} {s : σ} {x : Exec σ}
    (outcome : Outcome bus req s x) : x.reply.length ≤ max 12 req.length := by
  cases outcome with
  | ignored _ _ silent => simp [silent]
  | probe _ _ reply => simp [reply, headerBytes]
  | records h rs packet _ _ reply =>
    have bound := replyBytes_length_le bus req.length rs s
    rw [reply]
    omega

/-! ## The buffers -/

/-- Bytes of an IPv4 header without options and a UDP header. -/
def ipUdpOverhead : Nat := 28

/-- The handler returns on every request without a load past it, stores exactly the cells
of its reply, and replies with at most four bytes more than it got. So `eb_resp` holds
every reply, and a datagram with the reply fits every MTU that the request fitted and that
passes a probe reply (every IPv4 network passes 68 bytes). -/
theorem eb8008Handle_within_buffers {σ : Type} (bus : Bus σ) (req : List UInt8) (s : σ) :
    ∃ x, eb8008Handle bus req s = .ok x ∧
      (∀ i, x.respLen ≤ i → x.resp i = none) ∧
      (∀ i < x.respLen, ∃ b, x.resp i = some b) ∧
      x.respLen ≤ req.length + 4 ∧
      (¬ IsProbe req → x.respLen ≤ req.length) ∧
      x.respLen ≤ req.length + 16 ∧
      (req.length ≤ ebBufLen → x.respLen ≤ ebBufLen + 16) ∧
      ∀ mtu, ipUdpOverhead + 12 ≤ mtu → ipUdpOverhead + req.length ≤ mtu →
        ipUdpOverhead + x.respLen ≤ mtu := by
  obtain ⟨x, ran, outcome, filled, within⟩ := eb8008Handle_filled bus req s
  have length : x.reply.length = x.respLen := by simp [Exec.reply]
  have bound := outcome.reply_length
  have small : x.respLen ≤ req.length + 4 := by
    by_cases probe : IsProbe req
    · have long := probe.etherbone.long
      omega
    · exact Nat.le_add_right_of_le (within probe)
  refine ⟨x, ran, fun i beyond => ?_, fun i inside => ?_, small, within, by omega, by omega, ?_⟩
  · rw [← Option.not_isSome_iff_eq_none, filled i]
    exact Nat.not_lt.mpr beyond
  · exact Option.isSome_iff_exists.mp ((filled i).mpr inside)
  · intro mtu minimum fits
    omega

end Remote8008.Guarantees.EtherboneTotal
