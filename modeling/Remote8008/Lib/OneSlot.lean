import Mathlib.Data.List.Basic

/-!
# A one-slot server and a client that waits for its reads

Packets travel in order and may be lost. The server keeps the first packet that
finds its slot free, drops those that arrive while it is taken, and empties the slot
by serving it. The client sends a write only when it has nothing outstanding, and
then attempts reads, each under a fresh identifier, until the answer to its latest
attempt arrives. Writes are then never dropped: whatever could occupy the slot was
answered, or lies behind the write.
-/

namespace Remote8008.Lib.OneSlot

inductive Kind (ι : Type) where
  | write
  | read (id : ι)

def Kind.isWrite {ι : Type} : Kind ι → Bool
  | write => true
  | read _ => false

inductive Client (ι : Type) where
  | ready
  | wrote
  | reading (id : ι)

/-- `arrived`, `kept` and `served` record the packets that reached the server, entered
its slot, and left it by being served. -/
structure Config (π ι : Type) where
  client : Client ι
  flight : List π
  slot : Option π
  arrived : List π
  kept : List π
  served : List π
  used : List ι

variable {π ι : Type} {kind : π → Kind ι} {s s' : Config π ι}

inductive Step (kind : π → Kind ι) (s : Config π ι) : Config π ι → Prop where
  | write (p : π) (ready : s.client = .ready) (writes : kind p = .write) : Step kind s
      { s with client := .wrote, flight := s.flight ++ [p] }
  | attempt (p : π) (id : ι) (reads : kind p = .read id) (fresh : id ∉ s.used) : Step kind s
      { s with client := .reading id, flight := s.flight ++ [p], used := id :: s.used }
  | lose (p : π) (rest : List π) (first : s.flight = p :: rest) : Step kind s
      { s with flight := rest }
  | accept (p : π) (rest : List π) (first : s.flight = p :: rest) (free : s.slot = none) :
      Step kind s
      { s with flight := rest, slot := some p, arrived := s.arrived ++ [p], kept := s.kept ++ [p] }
  | drop (p q : π) (rest : List π) (first : s.flight = p :: rest) (busy : s.slot = some q) :
      Step kind s { s with flight := rest, arrived := s.arrived ++ [p] }
  | serve (p : π) (busy : s.slot = some p) : Step kind s
      { s with slot := none, served := s.served ++ [p] }
  | receive (id : ι) (reading : s.client = .reading id)
      (answered : ∃ p ∈ s.served, kind p = .read id) : Step kind s { s with client := .ready }

/-- A write can only be at the front, and only with the slot free. -/
structure WriteFirst (kind : π → Kind ι) (flight : List π) (slot : Option π) : Prop where
  reads : ∀ p ∈ flight.tail, kind p ≠ .write
  clear : ∀ p rest, flight = p :: rest → kind p = .write → slot = none

inductive Phase (kind : π → Kind ι) (s : Config π ι) : Prop where
  | ready (client : s.client = .ready) (landed : s.flight = []) (free : s.slot = none)
  | wrote (client : s.client = .wrote) (alone : s.flight.length ≤ 1)
      (clear : s.flight ≠ [] → s.slot = none)
  /-- The latest attempt is under way, last in line. -/
  | flying (id : ι) (front : List π) (p : π) (client : s.client = .reading id)
      (flight : s.flight = front ++ [p]) (reads : kind p = .read id)
      (others : ∀ q ∈ front ++ s.kept, kind q ≠ .read id)
      (first : WriteFirst kind front s.slot)
  /-- The latest attempt has landed, and if it was answered nothing is left. -/
  | landed (id : ι) (client : s.client = .reading id) (flight : s.flight = [])
      (settled : ∀ q ∈ s.served, kind q = .read id → s.slot = none)

structure Sound (kind : π → Kind ι) (s : Config π ι) : Prop where
  order : s.kept = s.served ++ s.slot.toList
  within : s.kept.Sublist s.arrived
  writes : s.kept.filter (fun p => (kind p).isWrite) = s.arrived.filter (fun p => (kind p).isWrite)
  used : ∀ p ∈ s.flight ++ s.kept, ∀ id, kind p = .read id → id ∈ s.used
  phase : Phase kind s

/-- The packet about to land finds the slot free if it is a write. -/
theorem Phase.writeFirst (phase : Phase kind s) : WriteFirst kind s.flight s.slot := by
  cases phase with
  | ready client landed free => exact ⟨by simp [landed], by simp [landed]⟩
  | wrote client alone clear =>
    refine ⟨fun p member => ?_, fun p rest first _ => clear (by simp [first])⟩
    have empty : s.flight.tail = [] :=
      List.eq_nil_of_length_eq_zero (by rw [List.length_tail]; omega)
    simp [empty] at member
  | flying id front p client flight reads others first =>
    rw [flight]
    cases front with
    | nil =>
      refine ⟨by simp, fun q rest same isWrite => ?_⟩
      obtain ⟨rfl, -⟩ : p = q ∧ [] = rest := by simpa using same
      simp [reads] at isWrite
    | cons q front =>
      refine ⟨fun r member => ?_, fun r rest same isWrite => ?_⟩
      · rcases List.mem_append.mp member with inFront | last
        · exact first.reads r inFront
        · rw [List.mem_singleton.mp last, reads]
          simp
      · obtain ⟨rfl, -⟩ : q = r ∧ front ++ [p] = rest := by simpa using same
        exact first.clear q front rfl isWrite
  | landed id client flight settled => exact ⟨by simp [flight], by simp [flight]⟩

theorem WriteFirst.tail {p : π} {rest : List π} {slot slot' : Option π}
    (first : WriteFirst kind (p :: rest) slot) : WriteFirst kind rest slot' := by
  refine ⟨fun q member => first.reads q (List.mem_of_mem_tail member),
    fun q others same isWrite => ?_⟩
  exact absurd isWrite (first.reads q (by simp [same]))

/-- The first packet leaves the flight, whatever becomes of it. -/
theorem Sound.land (sound : Sound kind s) {p : π} {rest : List π} (first : s.flight = p :: rest)
    (client : s'.client = s.client) (flight : s'.flight = rest) (served : s'.served = s.served)
    (kept : ∀ q ∈ s'.kept, q ∈ s.kept ∨ q = p) : Phase kind s' := by
  cases sound.phase with
  | ready _ landed _ => simp [landed] at first
  | wrote isWrote alone _ =>
    have empty : rest = [] := by
      rw [first, List.length_cons] at alone
      exact List.eq_nil_of_length_eq_zero (by omega)
    exact .wrote (client.trans isWrote) (by simp [flight, empty]) (by simp [flight, empty])
  | flying id front last isReading line reads others writeFirst =>
    cases front with
    | nil =>
      obtain ⟨-, empty⟩ : p = last ∧ rest = [] := by simpa [line] using first.symm
      refine .landed id (client.trans isReading) (flight.trans empty) fun q member isLast => ?_
      rw [served] at member
      exact absurd isLast (others q (by simp [sound.order, member]))
    | cons q front =>
      obtain ⟨rfl, rfl⟩ : q = p ∧ front ++ [last] = rest := by simpa [line] using first
      refine .flying id front last (client.trans isReading) flight reads ?_ writeFirst.tail
      intro r member
      rcases List.mem_append.mp member with inFront | inKept
      · exact others r (by simp [inFront])
      · rcases kept r inKept with old | rfl
        · exact others r (by simp [old])
        · exact others r (by simp)
  | landed _ _ empty _ => simp [empty] at first

theorem Sound.write (sound : Sound kind s) {p : π} (ready : s.client = .ready)
    (writes : kind p = .write) :
    Sound kind { s with client := .wrote, flight := s.flight ++ [p] } := by
  cases sound.phase with
  | ready _ landed free =>
    refine ⟨sound.order, sound.within, sound.writes, ?_, .wrote rfl (by simp [landed])
      fun _ => free⟩
    intro q member id isRead
    simp only [landed, List.nil_append, List.singleton_append, List.mem_cons] at member
    rcases member with rfl | member
    · simp [writes] at isRead
    · exact sound.used q (by simp [member]) id isRead
  | wrote client => simp [ready] at client
  | flying id front p client => simp [ready] at client
  | landed id client => simp [ready] at client

theorem Sound.attempt (sound : Sound kind s) {p : π} {id : ι} (reads : kind p = .read id)
    (fresh : id ∉ s.used) : Sound kind
      { s with client := .reading id, flight := s.flight ++ [p], used := id :: s.used } := by
  refine ⟨sound.order, sound.within, sound.writes, ?_, ?_⟩
  · intro q member id' isRead
    simp only [List.append_assoc, List.singleton_append, List.mem_append, List.mem_cons] at member
    rcases member with flying | rfl | kept
    · exact List.mem_cons_of_mem _ (sound.used q (by simp [flying]) id' isRead)
    · simp_all
    · exact List.mem_cons_of_mem _ (sound.used q (by simp [kept]) id' isRead)
  · exact .flying id s.flight p rfl rfl reads
      (fun q member isRead => fresh (sound.used q member id isRead)) sound.phase.writeFirst

theorem Sound.used_rest (sound : Sound kind s) {p : π} {rest : List π}
    (first : s.flight = p :: rest) :
    ∀ q ∈ rest ++ s.kept, ∀ id, kind q = .read id → id ∈ s.used := by
  intro q member
  exact sound.used q (by rw [first]; exact List.mem_cons_of_mem _ member)

theorem Sound.lose (sound : Sound kind s) {p : π} {rest : List π} (first : s.flight = p :: rest) :
    Sound kind { s with flight := rest } :=
  ⟨sound.order, sound.within, sound.writes, sound.used_rest first,
    sound.land first rfl rfl rfl fun _ => .inl⟩

theorem Sound.accept (sound : Sound kind s) {p : π} {rest : List π} (first : s.flight = p :: rest)
    (free : s.slot = none) : Sound kind { s with
      flight := rest, slot := some p, arrived := s.arrived ++ [p], kept := s.kept ++ [p] } := by
  refine ⟨?_, sound.within.append_right [p], ?_, ?_, sound.land first rfl rfl rfl ?_⟩
  · simpa [free] using sound.order
  · simp [List.filter_append, sound.writes]
  · intro q member
    apply sound.used q
    rw [first]
    simp only [List.mem_append, List.mem_cons, List.not_mem_nil, or_false] at member ⊢
    tauto
  · intro q member
    simpa using member

/-- What finds the slot taken is no write. -/
theorem Sound.drop (sound : Sound kind s) {p q : π} {rest : List π} (first : s.flight = p :: rest)
    (busy : s.slot = some q) :
    Sound kind { s with flight := rest, arrived := s.arrived ++ [p] } := by
  have notWrite : (kind p).isWrite = false := by
    cases shape : kind p with
    | write => simp [sound.phase.writeFirst.clear p rest first shape] at busy
    | read id => rfl
  refine ⟨sound.order, sound.within.trans (List.sublist_append_left _ _), ?_,
    sound.used_rest first, sound.land first rfl rfl rfl fun _ => .inl⟩
  simp [List.filter_append, notWrite, sound.writes]

theorem Sound.serve (sound : Sound kind s) {p : π} (busy : s.slot = some p) :
    Sound kind { s with slot := none, served := s.served ++ [p] } := by
  refine ⟨by simpa [busy] using sound.order, sound.within, sound.writes, sound.used, ?_⟩
  cases sound.phase with
  | ready _ _ free => simp [free] at busy
  | wrote client alone clear => exact .wrote client alone fun _ => rfl
  | flying id front last client flight reads others first =>
    exact .flying id front last client flight reads others ⟨first.reads, fun _ _ _ _ => rfl⟩
  | landed id client flight settled => exact .landed id client flight fun _ _ _ => rfl

/-- The client is answered only once its latest attempt has left the slot. -/
theorem Sound.receive (sound : Sound kind s) {id : ι} (reading : s.client = .reading id)
    (answered : ∃ p ∈ s.served, kind p = .read id) : Sound kind { s with client := .ready } := by
  refine ⟨sound.order, sound.within, sound.writes, sound.used, ?_⟩
  obtain ⟨q, wasServed, isRead⟩ := answered
  cases sound.phase with
  | ready client => simp [reading] at client
  | wrote client => simp [reading] at client
  | flying id' front last client flight reads others first =>
    obtain rfl : id = id' := by simpa [reading] using client
    exact absurd isRead (others q (by simp [sound.order, wasServed]))
  | landed id' client flight settled =>
    obtain rfl : id = id' := by simpa [reading] using client
    exact .ready rfl flight (settled q wasServed isRead)

theorem Sound.step (sound : Sound kind s) (move : Step kind s s') : Sound kind s' := by
  cases move with
  | write p ready writes => exact sound.write ready writes
  | attempt p id reads fresh => exact sound.attempt reads fresh
  | lose p rest first => exact sound.lose first
  | accept p rest first free => exact sound.accept first free
  | drop p q rest first busy => exact sound.drop first busy
  | serve p busy => exact sound.serve busy
  | receive id reading answered => exact sound.receive reading answered

/-- Whatever the slot took, it had taken every write that arrived before. -/
theorem Sound.writes_before (sound : Sound kind s) {before rest : List π} {p : π}
    (place : s.kept = before ++ p :: rest) :
    ∃ early late, s.arrived = early ++ p :: late ∧
      before.filter (fun q => (kind q).isWrite) = early.filter (fun q => (kind q).isWrite) := by
  have within := sound.within
  have writes := sound.writes
  rw [place, List.append_sublist_iff] at within
  obtain ⟨early, others, split, earlier, later⟩ := within
  obtain ⟨upTo, beyond, split', member, latest⟩ := List.cons_sublist_iff.mp later
  obtain ⟨between, more, cut⟩ := List.append_of_mem member
  have arrived : s.arrived = (early ++ between) ++ p :: (more ++ beyond) := by
    simp [split, split', cut]
  refine ⟨early ++ between, more ++ beyond, arrived, ?_⟩
  have front := (earlier.trans (List.sublist_append_left early between)).filter
    fun q => (kind q).isWrite
  have back := (latest.trans (List.sublist_append_right more beyond)).filter
    fun q => (kind q).isWrite
  have total := congrArg List.length writes
  rw [place, arrived] at total
  simp only [List.filter_append, List.filter_cons, List.length_append] at total
  apply front.eq_of_length
  have short := front.length_le
  have short' := back.length_le
  simp only [List.filter_append, List.length_append] at short short' ⊢
  split at total <;> simp only [List.length_cons, List.length_append] at total <;> omega

end Remote8008.Lib.OneSlot
