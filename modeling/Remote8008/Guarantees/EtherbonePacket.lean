import Remote8008.Source.Eb8008
import Remote8008.Source.EtherboneWire

/-!
# Exact effect of the Etherbone server on truncated packets

firmware/eb8008.c:71-132 against the record grammar. The abstract server performs
whole sections on the bus and keeps, for each read section, its return identifier
with the values read. The byte-level handler refines it on every prefix of every
packet: exactly the sections that end within the prefix are performed, in packet
order, and the reply buffer is the encoding of the answers.
-/

namespace Remote8008.Guarantees.EtherbonePacket
open Lib.BigEndian Source.Eb8008 Source.EtherboneWire

/-! ## Sections and where they end -/

inductive Part where
  | writes (s : Section)
  | reads (s : Section)

/-- The sections of the records starting at byte `offset`, each with the offset
of its first byte past the end. -/
def parts : Nat → List Record → List (Part × Nat)
  | _, [] => []
  | offset, r :: rest =>
    (r.writes.toList.map fun s => (Part.writes s, offset + 4 + s.size)) ++
      ((r.reads.toList.map fun s => (Part.reads s, offset + 4 + sectionSize r.writes + s.size)) ++
        parts (offset + r.size) rest)

/-- The sections that lie wholly within the first `n` bytes of the packet. -/
def completed (n : Nat) (rs : List Record) : List Part :=
  ((parts 8 rs).filter fun part => decide (part.2 ≤ n)).map Prod.fst

theorem parts_end_gt (offset : Nat) (rs : List Record) :
    ∀ part ∈ parts offset rs, offset + 4 < part.2 := by
  induction rs generalizing offset with
  | nil => intro part member; simp [parts] at member
  | cons r rest ih =>
    intro part member
    simp only [parts, List.mem_append, List.mem_map, Option.mem_toList] at member
    rcases member with ⟨s, _, rfl⟩ | ⟨s, _, rfl⟩ | later
    · simp only [Section.size]; omega
    · simp only [Section.size]; omega
    · have bound := ih _ part later
      simp only [Record.size] at bound
      omega

theorem filter_parts_eq_nil (n offset : Nat) (rs : List Record) (short : n ≤ offset + 4) :
    (parts offset rs).filter (fun part => decide (part.2 ≤ n)) = [] := by
  apply List.filter_eq_nil_iff.mpr
  intro part member
  have bound := parts_end_gt offset rs part member
  simp only [decide_eq_true_eq]
  omega

/-! ## The abstract server -/

section
variable {σ : Type} (bus : Bus σ)

/-- Bus state, accesses made, and the answers owed: a return identifier with the
values read for it. -/
structure View (σ : Type) where
  bus : σ
  accesses : List Access
  answers : List (UInt32 × List UInt32)

def View.write (v : View σ) (addr value : UInt32) : View σ :=
  { v with bus := bus.write v.bus addr value, accesses := v.accesses ++ [.write addr value] }

def View.read (v : View σ) (addr : UInt32) : UInt32 × View σ :=
  ((bus.read v.bus addr).1, { v with
    bus := (bus.read v.bus addr).2
    accesses := v.accesses ++ [.read addr (bus.read v.bus addr).1] })

/-- Word `i` of the section goes to `base + 4 * i` modulo 2^32. -/
def View.writeAll (base : UInt32) : Nat → List UInt32 → View σ → View σ
  | _, [], v => v
  | i, value :: rest, v =>
    writeAll base (i + 1) rest (v.write bus (base + UInt32.ofNat (4 * i)) value)

def View.readAll : List UInt32 → View σ → List UInt32 × View σ
  | [], v => ([], v)
  | addr :: rest, v =>
    let (value, v) := v.read bus addr
    let (values, v) := readAll rest v
    (value :: values, v)

def View.perform (v : View σ) : Part → View σ
  | .writes s => v.writeAll bus s.head 0 s.items
  | .reads s =>
    let (values, after) := v.readAll bus s.items
    { after with answers := after.answers ++ [(s.head, values)] }

def performAll (ps : List Part) (v : View σ) : View σ := ps.foldl (fun v p => v.perform bus p) v

theorem writeAll_answers (base : UInt32) (i : Nat) (words : List UInt32) (v : View σ) :
    (v.writeAll bus base i words).answers = v.answers := by
  induction words generalizing i v with
  | nil => rfl
  | cons w rest ih => exact ih _ _

theorem readAll_answers (addrs : List UInt32) (v : View σ) :
    (v.readAll bus addrs).2.answers = v.answers := by
  induction addrs generalizing v with
  | nil => rfl
  | cons a rest ih => exact ih _

theorem readAll_length (addrs : List UInt32) (v : View σ) :
    (v.readAll bus addrs).1.length = addrs.length := by
  induction addrs generalizing v with
  | nil => rfl
  | cons a rest ih => simp [View.readAll, ih]

/-- The values are those of the accesses, in order. -/
theorem readAll_accesses (addrs : List UInt32) (v : View σ) : (v.readAll bus addrs).2.accesses =
    v.accesses ++ List.zipWith Access.read addrs (v.readAll bus addrs).1 := by
  induction addrs generalizing v with
  | nil => simp [View.readAll]
  | cons a rest ih =>
    simp only [View.readAll, ih, View.read, List.zipWith_cons_cons, List.append_assoc,
      List.singleton_append]

/-- One answer per read section, in order, under its own return identifier. -/
theorem performAll_answers_ids (ps : List Part) (v : View σ) :
    (performAll bus ps v).answers.map Prod.fst = v.answers.map Prod.fst ++
      ps.filterMap fun p => match p with
        | .writes _ => none
        | .reads s => some s.head := by
  induction ps generalizing v with
  | nil => simp [performAll]
  | cons p rest ih =>
    have hrest := ih (v.perform bus p)
    simp only [performAll, List.foldl_cons] at hrest ⊢
    rw [hrest]
    cases p with
    | writes s => simp [View.perform, writeAll_answers]
    | reads s => simp [View.perform, readAll_answers]

/-! ## Reply bytes -/

def encodeAnswer (answer : UInt32 × List UInt32) : List UInt8 :=
  [0, 0x0f, UInt8.ofNat answer.2.length, 0] ++ (be32 answer.1 ++ answer.2.flatMap be32)

def replyBytes (answers : List (UInt32 × List UInt32)) : List UInt8 :=
  if answers = [] then [] else headerBytes false ++ answers.flatMap encodeAnswer

/-- The executable state of the handler represents the abstract one: same bus,
same accesses, and a reply buffer holding exactly the encoded answers. -/
structure Refines (x : Exec σ) (v : View σ) (bytes : List UInt8) : Prop where
  bus : x.bus = v.bus
  accesses : x.accesses = v.accesses
  resp : x.resp = fun i => bytes[i]?
  respLen : x.respLen = bytes.length

theorem put_end (bytes : List UInt8) (b : UInt8) :
    put (fun i => bytes[i]?) bytes.length b = fun i => (bytes ++ [b])[i]? := by
  funext j
  unfold put
  by_cases here : j = bytes.length
  · simp [here]
  · by_cases inside : j < bytes.length
    · rw [if_neg here, List.getElem?_append_left inside]
    · have beyond : (bytes ++ [b]).length ≤ j := by
        rw [List.length_append, List.length_singleton]
        omega
      simp only [if_neg here]
      rw [List.getElem?_eq_none (Nat.le_of_not_lt inside), List.getElem?_eq_none beyond]

theorem putBytes_end (bytes more : List UInt8) :
    putBytes (fun i => bytes[i]?) bytes.length more = fun i => (bytes ++ more)[i]? := by
  induction more generalizing bytes with
  | nil => simp [putBytes]
  | cons b rest ih =>
    rw [putBytes, put_end]
    have hrest := ih (bytes ++ [b])
    rw [List.length_append] at hrest
    simpa using hrest

/-! ## Loads from the request -/

theorem byteAt_of_prefix {req : List UInt8} {p : Nat} {b : UInt8} {rest : List UInt8}
    (here : (b :: rest) <+: req.drop p) :
    byteAt req p = .ok b ∧ rest <+: req.drop (p + 1) := by
  obtain ⟨tail, htail⟩ := here
  have hget : req[p]? = some b := by
    have hzero := congrArg (fun l => l[0]?) htail
    simpa using hzero.symm
  refine ⟨by simp [byteAt, hget], tail, ?_⟩
  have hdrop := congrArg (List.drop 1) htail
  simpa [List.drop_drop] using hdrop

theorem getBe32_of_prefix {req : List UInt8} {p : Nat} {v : UInt32} {rest : List UInt8}
    (here : (be32 v ++ rest) <+: req.drop p) :
    getBe32 req p = .ok v ∧ rest <+: req.drop (p + 4) := by
  obtain ⟨b0, b1, b2, b3, hb⟩ : ∃ b0 b1 b2 b3, be32 v = [b0, b1, b2, b3] := ⟨_, _, _, _, rfl⟩
  have hv : ofBe32 [b0, b1, b2, b3] = v := by rw [← hb, ofBe32_be32]
  rw [hb] at here
  obtain ⟨h0, here⟩ := byteAt_of_prefix here
  obtain ⟨h1, here⟩ := byteAt_of_prefix here
  obtain ⟨h2, here⟩ := byteAt_of_prefix here
  obtain ⟨h3, here⟩ := byteAt_of_prefix here
  refine ⟨?_, here⟩
  simp only [getBe32, h0, h1, h2, h3, hv, bind, Except.bind, pure, Except.pure]

/-! ## The word loops -/

variable {req : List UInt8}

theorem writeWords_refines (base : UInt32) (words : List UInt32) (i p : Nat) (x : Exec σ)
    (v : View σ) (bytes : List UInt8) (here : words.flatMap be32 <+: req.drop p)
    (rel : Refines x v bytes) :
    ∃ y, writeWords bus req base words.length i p x = .ok (p + 4 * words.length, y) ∧
      Refines y (v.writeAll bus base i words) bytes := by
  induction words generalizing i p x v with
  | nil => exact ⟨x, rfl, rel⟩
  | cons w rest ih =>
    obtain ⟨hload, here⟩ := getBe32_of_prefix here
    have hstep : Refines (x.busWrite bus (base + UInt32.ofNat (4 * i)) w)
        (v.write bus (base + UInt32.ofNat (4 * i)) w) bytes :=
      ⟨by simp [Exec.busWrite, View.write, rel.bus],
        by simp [Exec.busWrite, View.write, rel.accesses], rel.resp, rel.respLen⟩
    obtain ⟨y, hrun, hrel⟩ := ih (i + 1) (p + 4) _ _ here hstep
    refine ⟨y, ?_, hrel⟩
    simp only [List.length_cons, writeWords, hload, bind, Except.bind, hrun]
    congr 2
    omega

theorem readWords_refines (addrs : List UInt32) (p : Nat) (x : Exec σ) (v : View σ)
    (bytes : List UInt8) (here : addrs.flatMap be32 <+: req.drop p) (rel : Refines x v bytes) :
    ∃ y, readWords bus req addrs.length p x = .ok (p + 4 * addrs.length, y) ∧
      Refines y (v.readAll bus addrs).2 (bytes ++ (v.readAll bus addrs).1.flatMap be32) := by
  induction addrs generalizing p x v bytes with
  | nil => exact ⟨x, rfl, by simpa [View.readAll] using rel⟩
  | cons a rest ih =>
    obtain ⟨hload, here⟩ := getBe32_of_prefix here
    have hstep : Refines
        { (x.busRead bus a).2 with
          resp := putBe32 (x.busRead bus a).2.resp (x.busRead bus a).2.respLen (x.busRead bus a).1
          respLen := (x.busRead bus a).2.respLen + 4 }
        (v.read bus a).2 (bytes ++ be32 (v.read bus a).1) := by
      refine ⟨?_, ?_, ?_, ?_⟩
      · simp [Exec.busRead, View.read, rel.bus]
      · simp [Exec.busRead, View.read, rel.accesses, rel.bus]
      · simp only [Exec.busRead, View.read, putBe32, rel.resp, rel.respLen, rel.bus, putBytes_end]
      · simp [Exec.busRead, rel.respLen]
    obtain ⟨y, hrun, hrel⟩ := ih (p + 4) _ _ _ here hstep
    refine ⟨y, ?_, ?_⟩
    · simp only [List.length_cons, readWords, hload, bind, Except.bind, hrun]
      congr 2
      omega
    · simpa [View.readAll, List.append_assoc] using hrel

/-! ## Sections -/

theorem openReply_refines (x : Exec σ) (v : View σ) (rel : Refines x v (replyBytes v.answers)) :
    Refines (openReply x) v (headerBytes false ++ v.answers.flatMap encodeAnswer) := by
  unfold openReply
  by_cases fresh : v.answers = []
  · have hempty : replyBytes v.answers = [] := by simp [replyBytes, fresh]
    rw [hempty] at rel
    rw [if_pos (by simpa using rel.respLen)]
    refine ⟨rel.bus, rel.accesses, ?_, by simp [fresh, headerBytes]⟩
    have hput := putBytes_end [] (headerBytes false)
    simp only [putHeader, rel.resp, fresh, List.flatMap_nil, List.append_nil]
    simpa using hput
  · have hbytes : replyBytes v.answers = headerBytes false ++ v.answers.flatMap encodeAnswer := by
      simp [replyBytes, fresh]
    rw [hbytes] at rel
    have started : ¬ x.respLen = 0 := by
      rw [rel.respLen]
      simp [headerBytes]
    rw [if_neg started]
    exact rel

theorem putRecordHeader_refines (x : Exec σ) (v : View σ) (bytes : List UInt8) (rcount : Nat)
    (id : UInt32) (rel : Refines x v bytes) :
    Refines (putRecordHeader x rcount id) v
      (bytes ++ ([0, 0x0f, UInt8.ofNat rcount, 0] ++ be32 id)) := by
  refine ⟨rel.bus, rel.accesses, ?_, by simp [putRecordHeader, rel.respLen]⟩
  have hput := putBytes_end (bytes ++ [0, 0x0f, UInt8.ofNat rcount, 0]) (be32 id)
  rw [List.length_append] at hput
  simp only [putRecordHeader, putBe32, rel.resp, rel.respLen, putBytes_end]
  simpa using hput

theorem writeSection_none (p : Nat) (x : Exec σ) :
    writeSection bus req (count none).toNat p x = .ok (.next p x) := by
  simp [writeSection, count_none]

theorem readSection_none (p : Nat) (x : Exec σ) :
    readSection bus req (count none).toNat p x = .ok (.next p x) := by
  simp [readSection, count_none]

theorem writeSection_cut (s : Section) (p : Nat) (x : Exec σ) (cut : req.length < p + s.size) :
    writeSection bus req (count (some s)).toNat p x = .ok (.stop x) := by
  have hpos := s.nonempty
  unfold writeSection
  rw [count_some, if_neg (by omega), if_pos (by simpa [Section.size] using cut)]

theorem readSection_cut (s : Section) (p : Nat) (x : Exec σ) (cut : req.length < p + s.size) :
    readSection bus req (count (some s)).toNat p x = .ok (.stop x) := by
  have hpos := s.nonempty
  unfold readSection
  rw [count_some, if_neg (by omega), if_pos (by simpa [Section.size] using cut)]

theorem writeSection_complete (s : Section) (p : Nat) (x : Exec σ) (v : View σ)
    (whole : p + s.size ≤ req.length) (here : encodeSection (some s) <+: req.drop p)
    (rel : Refines x v (replyBytes v.answers)) :
    ∃ y, writeSection bus req (count (some s)).toNat p x = .ok (.next (p + s.size) y) ∧
      Refines y (v.perform bus (.writes s)) (replyBytes (v.perform bus (.writes s)).answers) := by
  have hpos := s.nonempty
  obtain ⟨hload, here⟩ := getBe32_of_prefix here
  obtain ⟨y, hrun, hrel⟩ := writeWords_refines bus s.head s.items 0 (p + 4) x v _ here rel
  refine ⟨y, ?_, ?_⟩
  · unfold writeSection
    rw [count_some, if_neg (by omega), if_neg (by simpa [Section.size] using whole)]
    simp only [hload, hrun, bind, Except.bind, pure, Except.pure, Section.size]
    congr 2
    omega
  · simpa only [View.perform, writeAll_answers] using hrel

theorem readSection_complete (s : Section) (p : Nat) (x : Exec σ) (v : View σ)
    (whole : p + s.size ≤ req.length) (here : encodeSection (some s) <+: req.drop p)
    (rel : Refines x v (replyBytes v.answers)) :
    ∃ y, readSection bus req (count (some s)).toNat p x = .ok (.next (p + s.size) y) ∧
      Refines y (v.perform bus (.reads s)) (replyBytes (v.perform bus (.reads s)).answers) := by
  have hpos := s.nonempty
  obtain ⟨hload, here⟩ := getBe32_of_prefix here
  have hopen := putRecordHeader_refines _ _ _ s.items.length s.head (openReply_refines x v rel)
  obtain ⟨y, hrun, hrel⟩ := readWords_refines bus s.items (p + 4) _ v _ here hopen
  refine ⟨y, ?_, ?_⟩
  · unfold readSection
    rw [count_some, if_neg (by omega), if_neg (by simpa [Section.size] using whole)]
    simp only [hload, hrun, bind, Except.bind, pure, Except.pure, Section.size]
    congr 2
    omega
  · have hbytes : replyBytes (v.perform bus (.reads s)).answers =
        headerBytes false ++ v.answers.flatMap encodeAnswer ++
          ([0, 0x0f, UInt8.ofNat s.items.length, 0] ++ be32 s.head) ++
            (v.readAll bus s.items).1.flatMap be32 := by
      simp [View.perform, replyBytes, readAll_answers, encodeAnswer, readAll_length]
    rw [hbytes]
    exact ⟨hrel.bus, hrel.accesses, hrel.resp, hrel.respLen⟩

/-! ## The record loop -/

/-- The bytes of a section that fits in the request are in the request. -/
theorem section_here {p : Nat} {body rest : List UInt8} (cut : req.drop p <+: body ++ rest)
    (whole : p + body.length ≤ req.length) :
    body <+: req.drop p ∧ req.drop (p + body.length) <+: rest := by
  have hbody : body <+: req.drop p := by
    apply List.prefix_of_prefix_length_le (List.prefix_append body rest) cut
    rw [List.length_drop]
    omega
  refine ⟨hbody, ?_⟩
  obtain ⟨tail, htail⟩ := hbody
  have hdrop : req.drop (p + body.length) = tail := by
    rw [← List.drop_drop, ← htail, List.drop_left]
  rw [← htail, List.prefix_append_right_inj] at cut
  rw [hdrop]
  exact cut

/-- How the loop body treats a section at `p`: performed and passed, or cut and
left untouched with the loop ended. -/
theorem writeSection_refines (s : Option Section) (p : Nat) (x : Exec σ) (v : View σ)
    (rest : List UInt8) (cut : req.drop p <+: encodeSection s ++ rest)
    (inside : p ≤ req.length) (rel : Refines x v (replyBytes v.answers)) :
    (p + sectionSize s ≤ req.length ∧ req.drop (p + sectionSize s) <+: rest ∧
      ∃ y v', v' = performAll bus (s.toList.map .writes) v ∧
        writeSection bus req (count s).toNat p x = .ok (.next (p + sectionSize s) y) ∧
        Refines y v' (replyBytes v'.answers)) ∨
    (req.length < p + sectionSize s ∧
      writeSection bus req (count s).toNat p x = .ok (.stop x)) := by
  cases s with
  | none => exact Or.inl ⟨inside, cut, x, v, rfl, writeSection_none bus p x, rel⟩
  | some s =>
    by_cases whole : p + s.size ≤ req.length
    · have hlength := encodeSection_length (some s)
      obtain ⟨here, later⟩ := section_here cut (by simpa [hlength, sectionSize] using whole)
      obtain ⟨y, hrun, hrel⟩ := writeSection_complete bus s p x v whole here rel
      rw [hlength] at later
      exact Or.inl ⟨whole, later, y, _, rfl, hrun, hrel⟩
    · have short : req.length < p + s.size := by omega
      exact Or.inr ⟨short, writeSection_cut bus s p x short⟩

theorem readSection_refines (s : Option Section) (p : Nat) (x : Exec σ) (v : View σ)
    (rest : List UInt8) (cut : req.drop p <+: encodeSection s ++ rest)
    (inside : p ≤ req.length) (rel : Refines x v (replyBytes v.answers)) :
    (p + sectionSize s ≤ req.length ∧ req.drop (p + sectionSize s) <+: rest ∧
      ∃ y v', v' = performAll bus (s.toList.map .reads) v ∧
        readSection bus req (count s).toNat p x = .ok (.next (p + sectionSize s) y) ∧
        Refines y v' (replyBytes v'.answers)) ∨
    (req.length < p + sectionSize s ∧
      readSection bus req (count s).toNat p x = .ok (.stop x)) := by
  cases s with
  | none => exact Or.inl ⟨inside, cut, x, v, rfl, readSection_none bus p x, rel⟩
  | some s =>
    by_cases whole : p + s.size ≤ req.length
    · have hlength := encodeSection_length (some s)
      obtain ⟨here, later⟩ := section_here cut (by simpa [hlength, sectionSize] using whole)
      obtain ⟨y, hrun, hrel⟩ := readSection_complete bus s p x v whole here rel
      rw [hlength] at later
      exact Or.inl ⟨whole, later, y, _, rfl, hrun, hrel⟩
    · have short : req.length < p + s.size := by omega
      exact Or.inr ⟨short, readSection_cut bus s p x short⟩

theorem performAll_append (first second : List Part) (v : View σ) :
    performAll bus (first ++ second) v = performAll bus second (performAll bus first v) := by
  simp [performAll, List.foldl_append]

/-- The sections of the first record that end within `n` bytes, then the others. -/
theorem filter_parts_cons (n p : Nat) (r : Record) (rest : List Record) :
    ((parts p (r :: rest)).filter fun part => decide (part.2 ≤ n)).map Prod.fst =
      (if p + 4 + sectionSize r.writes ≤ n then r.writes.toList.map .writes else []) ++
        ((if p + 4 + sectionSize r.writes + sectionSize r.reads ≤ n then
          r.reads.toList.map .reads else []) ++
          ((parts (p + r.size) rest).filter fun part => decide (part.2 ≤ n)).map Prod.fst) := by
  have single : ∀ (part : Part) (stop : Nat),
      (([(part, stop)].filter fun part => decide (part.2 ≤ n)).map Prod.fst) =
        if stop ≤ n then [part] else [] := by
    intro part stop
    by_cases within : stop ≤ n <;> simp [within]
  rw [parts, List.filter_append, List.filter_append, List.map_append, List.map_append]
  congr 1
  · cases hw : r.writes with
    | none => simp
    | some s => exact single (.writes s) (p + 4 + s.size)
  · congr 1
    cases hr : r.reads with
    | none => simp
    | some s => exact single (.reads s) (p + 4 + sectionSize r.writes + s.size)

/-- A record header that is there gives both counts and leaves the sections. -/
theorem recordHeader_here {r : Record} {rest : List Record} {p : Nat}
    (cut : req.drop p <+: (r :: rest).flatMap encodeRecord) (header : p + 4 ≤ req.length) :
    byteAt req (p + 2) = .ok (count r.writes) ∧ byteAt req (p + 3) = .ok (count r.reads) ∧
      req.drop (p + 4) <+:
        encodeSection r.writes ++ (encodeSection r.reads ++ rest.flatMap encodeRecord) := by
  rw [List.flatMap_cons, encodeRecord, List.append_assoc] at cut
  obtain ⟨hbytes, cut⟩ := section_here cut (by simpa using header)
  obtain ⟨_, hbytes⟩ := byteAt_of_prefix hbytes
  obtain ⟨_, hbytes⟩ := byteAt_of_prefix hbytes
  obtain ⟨hwcount, hbytes⟩ := byteAt_of_prefix hbytes
  obtain ⟨hrcount, _⟩ := byteAt_of_prefix hbytes
  exact ⟨hwcount, hrcount, by simpa using cut⟩

/-- Loop invariant of `while (p + 4 <= end)`: what is left of the request is a
prefix of the encoding of the records still to come. -/
theorem recordLoop_refines (rs : List Record) (fuel p : Nat) (x : Exec σ) (v : View σ)
    (cut : req.drop p <+: rs.flatMap encodeRecord) (inside : p ≤ req.length)
    (enough : req.length < p + 4 * fuel) (rel : Refines x v (replyBytes v.answers)) :
    ∃ y v', v' = performAll bus
        (((parts p rs).filter fun part => decide (part.2 ≤ req.length)).map Prod.fst) v ∧
      recordLoop bus req fuel p x = .ok y ∧ Refines y v' (replyBytes v'.answers) := by
  induction rs generalizing fuel p x v with
  | nil =>
    have hend : req.length ≤ p := by
      have hnil := List.prefix_nil.mp cut
      simpa using hnil
    cases fuel with
    | zero => omega
    | succ fuel =>
      refine ⟨x, v, rfl, ?_, rel⟩
      unfold recordLoop
      rw [if_neg (by omega)]
  | cons r rest ih =>
    cases fuel with
    | zero => omega
    | succ fuel =>
      by_cases header : p + 4 ≤ req.length
      · obtain ⟨hwcount, hrcount, cut⟩ := recordHeader_here cut header
        rw [filter_parts_cons]
        rcases writeSection_refines bus r.writes (p + 4) x v _ cut header rel with
          ⟨wwhole, cut, xw, vw, hvw, hwrite, relw⟩ | ⟨wcut, hwrite⟩
        · rcases readSection_refines bus r.reads _ xw vw _ cut wwhole relw with
            ⟨rwhole, cut, xr, vr, hvr, hread, relr⟩ | ⟨rcut, hread⟩
          · have hnext : p + 4 + sectionSize r.writes + sectionSize r.reads = p + r.size := by
              simp only [Record.size]
              omega
            rw [hnext] at rwhole cut hread
            obtain ⟨y, v', hv', hrun, hrel⟩ := ih fuel (p + r.size) xr vr cut rwhole
              (by simp only [Record.size]; omega) relr
            refine ⟨y, v', ?_, ?_, hrel⟩
            · rw [if_pos wwhole, if_pos (by omega), performAll_append, performAll_append, ← hvw,
                ← hvr, hv']
            · unfold recordLoop
              simp only [if_pos header, hwcount, hrcount, hwrite, hread, hrun, bind, Except.bind]
          · refine ⟨xw, vw, ?_, ?_, relw⟩
            · rw [if_pos wwhole, if_neg (by omega), filter_parts_eq_nil _ _ _
                (by simp only [Record.size]; omega)]
              simpa [performAll_append, performAll] using hvw
            · unfold recordLoop
              simp only [if_pos header, hwcount, hrcount, hwrite, hread, bind, Except.bind, pure,
                Except.pure]
        · refine ⟨x, v, ?_, ?_, rel⟩
          · rw [if_neg (by omega), if_neg (by omega), filter_parts_eq_nil _ _ _
              (by simp only [Record.size]; omega)]
            rfl
          · unfold recordLoop
            simp only [if_pos header, hwcount, hrcount, hwrite, bind, Except.bind, pure,
              Except.pure]
      · refine ⟨x, v, ?_, ?_, rel⟩
        · rw [filter_parts_eq_nil _ _ _ (by omega)]
          rfl
        · unfold recordLoop
          rw [if_neg header]

/-! ## Whole packets -/

theorem encodeHeader_bytes (h : Header) : ∃ b0 b1 b2 b3, encodeHeader h =
    [ebMagic0, ebMagic1, h.flags, h.sizes, b0, b1, b2, b3] := ⟨_, _, _, _, rfl⟩

/-- The handler refines the abstract server on every prefix of every packet. -/
theorem eb8008Handle_refines (bus : Bus σ) (h : Header) (pfClear : h.flags &&& ebPf = 0)
    (rs : List Record) (n : Nat) (short : n ≤ (encode h rs).length) (s : σ) :
    ∃ x, eb8008Handle bus ((encode h rs).take n) s = .ok x ∧
      Refines x (performAll bus (completed n rs) ⟨s, [], []⟩)
        (replyBytes (performAll bus (completed n rs) ⟨s, [], []⟩).answers) := by
  have hlength : ((encode h rs).take n).length = n := by simpa using short
  have start : Refines (⟨s, [], fun _ => none, 0⟩ : Exec σ) ⟨s, [], []⟩ (replyBytes []) :=
    ⟨rfl, rfl, rfl, rfl⟩
  by_cases tiny : n < 8
  · refine ⟨⟨s, [], fun _ => none, 0⟩, ?_, ?_⟩
    · unfold eb8008Handle
      rw [hlength, if_pos tiny]
    · rw [completed, filter_parts_eq_nil _ _ _ (by omega)]
      exact start
  · have cut : ((encode h rs).take n).drop 0 <+: encodeHeader h ++ rs.flatMap encodeRecord :=
      List.take_prefix n _
    obtain ⟨hbytes, cut⟩ := section_here cut (by rw [hlength, encodeHeader_length]; omega)
    obtain ⟨b0, b1, b2, b3, hheader⟩ := encodeHeader_bytes h
    rw [hheader] at hbytes
    obtain ⟨h0, hbytes⟩ := byteAt_of_prefix hbytes
    obtain ⟨h1, hbytes⟩ := byteAt_of_prefix hbytes
    obtain ⟨h2, _⟩ := byteAt_of_prefix hbytes
    rw [encodeHeader_length] at cut
    obtain ⟨y, v', hv', hrun, hrel⟩ := recordLoop_refines bus rs (n + 1) 8 _ _ cut
      (by omega) (by omega) start
    rw [hlength] at hv'
    refine ⟨y, ?_, ?_⟩
    · unfold eb8008Handle
      simp only [hlength, if_neg tiny, h0, h1, h2, pfClear, bind, Except.bind]
      simpa using hrun
    · rw [completed, ← hv']
      exact hrel

theorem reply_of_refines (x : Exec σ) (v : View σ) (bytes : List UInt8)
    (rel : Refines x v bytes) : x.reply = bytes := by
  unfold Exec.reply
  rw [rel.resp, rel.respLen]
  apply List.ext_getElem
  · simp
  · intro i hi hj
    simp [List.getElem?_eq_getElem hj]

/-- The leading word and the words of a record that only writes. -/
def writeOnly (r : Record) : Option (UInt32 × List UInt32) × Option Section :=
  (r.writes.map fun s => (s.head, s.items), r.reads)

/-- Answers are read sections, so each of them fits a write section. -/
theorem performAll_answers_fit (bus : Bus σ) (ps : List Part) (v : View σ)
    (fit : ∀ a ∈ v.answers, 0 < a.2.length ∧ a.2.length ≤ 255) :
    ∀ a ∈ (performAll bus ps v).answers, 0 < a.2.length ∧ a.2.length ≤ 255 := by
  induction ps generalizing v with
  | nil => exact fit
  | cons p rest ih =>
    apply ih (v.perform bus p)
    intro a member
    cases p with
    | writes s => exact fit a (by simpa [View.perform, writeAll_answers] using member)
    | reads s =>
      simp only [View.perform, readAll_answers, List.mem_append, List.mem_singleton] at member
      rcases member with old | rfl
      · exact fit a old
      · simp only [readAll_length]
        exact ⟨s.nonempty, s.fits⟩

theorem encodeAnswers_records (answers : List (UInt32 × List UInt32))
    (fit : ∀ a ∈ answers, 0 < a.2.length ∧ a.2.length ≤ 255) :
    ∃ records : List Record, records.flatMap encodeRecord = answers.flatMap encodeAnswer ∧
      records.map writeOnly = answers.map fun a => (some a, none) := by
  induction answers with
  | nil => exact ⟨[], rfl, rfl⟩
  | cons a rest ih =>
    obtain ⟨records, hbytes, hwrites⟩ := ih (fun b member => fit b (by simp [member]))
    have here := fit a (by simp)
    refine ⟨⟨0, 0x0f, some ⟨a.1, a.2, here.1, here.2⟩, none⟩ :: records, ?_, ?_⟩
    · rw [List.flatMap_cons, List.flatMap_cons, hbytes]
      simp [encodeRecord, encodeAnswer, encodeSection, count]
    · rw [List.map_cons, List.map_cons, hwrites]
      rfl

theorem respLen_eq_zero_iff {x : Exec σ} {v : View σ} (rel : Refines x v (replyBytes v.answers)) :
    x.respLen = 0 ↔ v.answers = [] := by
  rw [rel.respLen]
  unfold replyBytes
  split
  next none => simp [none]
  next some => simp [some, headerBytes]

/-- The reply is a packet of write-only records, one for each answer. -/
theorem reply_encodes {x : Exec σ} {v : View σ} (rel : Refines x v (replyBytes v.answers))
    (fit : ∀ a ∈ v.answers, 0 < a.2.length ∧ a.2.length ≤ 255) (answered : v.answers ≠ []) :
    ∃ records, x.reply = encode ⟨0x10, 0x44, 0⟩ records ∧
      records.map writeOnly = v.answers.map fun a => (some a, none) := by
  obtain ⟨records, hbytes, hwrites⟩ := encodeAnswers_records _ fit
  refine ⟨records, ?_, hwrites⟩
  rw [reply_of_refines x _ _ rel, replyBytes, if_neg answered, ← hbytes]
  rfl

/-- Return identifiers of the read sections among some parts. -/
def readIds (ps : List Part) : List UInt32 :=
  ps.filterMap fun p => match p with
    | .writes _ => none
    | .reads s => some s.head

/-- Exact effect on every truncation of every packet. The accesses are those of
the completed sections in packet order on the evolving bus, nothing is answered
unless a read section is complete, and the reply decodes to one write-only record
per completed read section, carrying its return identifier and the values read. -/
theorem eb8008Handle_truncated (bus : Bus σ) (h : Header) (pfClear : h.flags &&& ebPf = 0)
    (rs : List Record) (n : Nat) (short : n ≤ (encode h rs).length) (s : σ) :
    ∃ x, eb8008Handle bus ((encode h rs).take n) s = .ok x ∧
      x.bus = (performAll bus (completed n rs) ⟨s, [], []⟩).bus ∧
      x.accesses = (performAll bus (completed n rs) ⟨s, [], []⟩).accesses ∧
      (x.respLen = 0 ↔ readIds (completed n rs) = []) ∧
      (performAll bus (completed n rs) ⟨s, [], []⟩).answers.map Prod.fst =
        readIds (completed n rs) ∧
      (x.respLen ≠ 0 → ∃ records, decode x.reply = some (⟨0x10, 0x44, 0⟩, records) ∧
        records.map writeOnly =
          (performAll bus (completed n rs) ⟨s, [], []⟩).answers.map fun a => (some a, none)) := by
  obtain ⟨x, hrun, rel⟩ := eb8008Handle_refines bus h pfClear rs n short s
  have hids : (performAll bus (completed n rs) ⟨s, [], []⟩).answers.map Prod.fst =
      readIds (completed n rs) := by
    simpa [readIds] using performAll_answers_ids bus (completed n rs) ⟨s, [], []⟩
  have hnone := respLen_eq_zero_iff rel
  refine ⟨x, hrun, rel.bus, rel.accesses, ?_, hids, ?_⟩
  · rw [hnone, ← hids, List.map_eq_nil_iff]
  · intro answered
    have fit := performAll_answers_fit bus (completed n rs) ⟨s, [], []⟩ (by simp)
    obtain ⟨records, hreply, hwrites⟩ :=
      reply_encodes rel fit (fun none => answered (hnone.mpr none))
    exact ⟨records, by rw [hreply, decode_encode], hwrites⟩

end

/-- A packet whose second record is cut inside its read section, on a bus that
counts its accesses: the write and the first read are performed, nothing else. -/
theorem eb8008Handle_truncated_second_read :
    let bus : Bus Nat := ⟨fun k a => (a + UInt32.ofNat k, k + 1), fun k _ _ => k + 1⟩
    let first : Record := ⟨0, 0x0f, some ⟨0xf0000000, [7], by decide, by decide⟩,
      some ⟨1, [0x20], by decide, by decide⟩⟩
    let second : Record := ⟨0, 0x0f, none, some ⟨2, [0x30], by decide, by decide⟩⟩
    ∃ x, eb8008Handle bus ((encode ⟨0x10, 0x44, 0⟩ [first, second]).take 39) 0 = .ok x ∧
      x.accesses = [.write 0xf0000000 7, .read 0x20 0x21] := by
  intro bus first second
  obtain ⟨x, hrun, _, haccesses, _⟩ := eb8008Handle_truncated bus ⟨0x10, 0x44, 0⟩ (by decide)
    [first, second] 39 (by decide) 0
  exact ⟨x, hrun, haccesses.trans (by decide)⟩

end Remote8008.Guarantees.EtherbonePacket
