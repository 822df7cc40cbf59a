import Remote8008.Guarantees.EtherbonePacket

/-!
# What the server answers to a whole packet

The cases of the wire protocol that the host side uses (firmware/eb8008.c:71-132): a
packet that only writes is not answered, a packet with one read section is answered by
one write-only record under the same identifier, and a probe by a probe reply.
-/

namespace Remote8008.Guarantees.EtherboneReply
open Lib.BigEndian Source.Eb8008 Source.EtherboneWire EtherbonePacket

variable {σ : Type} (bus : Bus σ)

/-- The sections of a record, in the order they are performed. -/
def sectionsOf (r : Record) : List Part :=
  r.writes.toList.map .writes ++ r.reads.toList.map .reads

theorem parts_end_le (offset : Nat) (rs : List Record) :
    ∀ part ∈ parts offset rs, part.2 ≤ offset + (rs.flatMap encodeRecord).length := by
  induction rs generalizing offset with
  | nil => intro part member; simp [parts] at member
  | cons r rest ih =>
    intro part member
    have size : r.size = 4 + sectionSize r.writes + sectionSize r.reads := rfl
    simp only [List.flatMap_cons, List.length_append, encodeRecord_length]
    simp only [parts, List.mem_append, List.mem_map, Option.mem_toList] at member
    rcases member with ⟨s, present, rfl⟩ | ⟨s, present, rfl⟩ | later
    · simp only [size, present, sectionSize, Option.map_some, Option.getD_some]
      omega
    · simp only [size, present, sectionSize, Option.map_some, Option.getD_some]
      omega
    · have bound := ih (offset + r.size) part later
      omega

theorem parts_sections (offset : Nat) (rs : List Record) :
    (parts offset rs).map Prod.fst = rs.flatMap sectionsOf := by
  induction rs generalizing offset with
  | nil => rfl
  | cons r rest ih =>
    simp [parts, sectionsOf, ih, Function.comp_def]

theorem completed_whole (h : Header) (rs : List Record) :
    completed (encode h rs).length rs = rs.flatMap sectionsOf := by
  have all : (parts 8 rs).filter (fun part => decide (part.2 ≤ (encode h rs).length)) =
      parts 8 rs := by
    apply List.filter_eq_self.mpr
    intro part member
    have bound := parts_end_le 8 rs part member
    simpa [encode] using bound
  rw [completed, all, parts_sections]

/-- A whole packet is handled section by section. -/
theorem eb8008Handle_packet {h : Header} (pfClear : h.flags &&& ebPf = 0) (rs : List Record)
    (s : σ) : ∃ x, eb8008Handle bus (encode h rs) s = .ok x ∧
      Refines x (performAll bus (rs.flatMap sectionsOf) ⟨s, [], []⟩)
        (replyBytes (performAll bus (rs.flatMap sectionsOf) ⟨s, [], []⟩).answers) := by
  have handled := eb8008Handle_refines bus h pfClear rs (encode h rs).length (Nat.le_refl _) s
  rwa [List.take_length, completed_whole] at handled

theorem performAll_writes (ps : List Part) (v : View σ)
    (writes : ∀ p ∈ ps, ∃ s, p = .writes s) : (performAll bus ps v).answers = v.answers := by
  induction ps generalizing v with
  | nil => rfl
  | cons p rest ih =>
    obtain ⟨s, rfl⟩ := writes p (by simp)
    have later := ih (v.perform bus (.writes s)) fun q member => writes q (by simp [member])
    rw [performAll, List.foldl_cons]
    exact later.trans (writeAll_answers bus ..)

/-- Without a read section there is no reply. -/
theorem reply_of_writes {h : Header} (pfClear : h.flags &&& ebPf = 0) {rs : List Record} {s : σ}
    {x : Exec σ} (readless : ∀ r ∈ rs, r.reads = none)
    (ran : eb8008Handle bus (encode h rs) s = .ok x) : x.reply = [] := by
  obtain ⟨y, ran', rel⟩ := eb8008Handle_packet bus pfClear rs s
  obtain rfl : x = y := by simpa [ran] using ran'
  have silent := performAll_writes bus (rs.flatMap sectionsOf) ⟨s, [], []⟩ (by
    intro p member
    obtain ⟨r, inside, place⟩ := List.mem_flatMap.mp member
    simp only [sectionsOf, readless r inside, Option.toList_none, List.map_nil, List.append_nil,
      List.mem_map] at place
    obtain ⟨t, -, rfl⟩ := place
    exact ⟨t, rfl⟩)
  rw [reply_of_refines x _ _ rel, silent]
  rfl

/-- A packet with one read section is answered under its identifier, by the values that
were read from the addresses, in order. -/
theorem reply_of_read {h : Header} (pfClear : h.flags &&& ebPf = 0) {r : Record} {t : Section}
    (writeless : r.writes = none) (reads : r.reads = some t) {s : σ} {x : Exec σ}
    (ran : eb8008Handle bus (encode h [r]) s = .ok x) :
    ∃ answer w, x.reply = encode ⟨0x10, 0x44, 0⟩ [answer] ∧ answer.writes = some w ∧
      w.head = t.head ∧ w.items.length = t.items.length ∧
      x.accesses = List.zipWith Access.read t.items w.items := by
  obtain ⟨y, ran', rel⟩ := eb8008Handle_packet bus pfClear [r] s
  obtain rfl : x = y := by simpa [ran] using ran'
  have only : [r].flatMap sectionsOf = [.reads t] := by simp [sectionsOf, writeless, reads]
  rw [only] at rel
  generalize begun : (⟨s, [], []⟩ : View σ) = start at rel
  have noAnswers : start.answers = [] := by rw [← begun]
  have noAccesses : start.accesses = [] := by rw [← begun]
  have answers : (performAll bus [.reads t] start).answers =
      [(t.head, (start.readAll bus t.items).1)] := by
    simp [performAll, View.perform, readAll_answers, noAnswers]
  have accesses : (performAll bus [.reads t] start).accesses =
      List.zipWith Access.read t.items (start.readAll bus t.items).1 := by
    simp [performAll, View.perform, readAll_accesses, noAccesses]
  have fit := performAll_answers_fit bus [.reads t] start (by simp [noAnswers])
  obtain ⟨records, reply, shapes⟩ := reply_encodes rel fit (by simp [answers])
  rw [answers] at shapes
  obtain ⟨answer, rfl, shape⟩ : ∃ answer, records = [answer] ∧
      writeOnly answer = (some (t.head, (start.readAll bus t.items).1), none) := by
    simpa [List.map_eq_cons_iff] using shapes
  simp only [writeOnly, Prod.mk.injEq, Option.map_eq_some_iff] at shape
  obtain ⟨⟨w, writes, head, items⟩, -⟩ := shape
  refine ⟨answer, w, reply, writes, head, ?_, ?_⟩
  · rw [items, readAll_length]
  · rw [rel.accesses, items, accesses]

/-- A probe is answered by a probe reply, and nothing else happens. -/
theorem reply_of_probe {h : Header} (probing : h.flags &&& ebPf ≠ 0) (rs : List Record) (s : σ) :
    ∃ x, eb8008Handle bus (encode h rs) s = .ok x ∧
      x.reply = encode ⟨0x12, 0x44, 0⟩ [⟨0, 0, none, none⟩] := by
  refine ⟨⟨s, [], putBe32 (putHeader (fun _ => none) 0 true) 8 0, 12⟩, ?_, rfl⟩
  have long : ¬ (encode h rs).length < 8 := by simp [encode]
  rw [eb8008Handle, if_neg long]
  simp [encode, encodeHeader, byteAt, bind, Except.bind, ebMagic0, ebMagic1, probing, pure,
    Except.pure]

end Remote8008.Guarantees.EtherboneReply
