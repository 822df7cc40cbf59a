import Mathlib.Tactic.IntervalCases
import Remote8008.Guarantees.EtherboneReply
import Remote8008.System.ReadSession

/-!
# A read returns what this very call asked for

host/b8008net/eb_server.py:78-115 in the system of `System.ReadSession`. Identifiers are
never reused, so the datagrams under the current one are the latest request of the call
and the replies to it, and those were produced after it was sent. Everything else the
socket can hear has no write section or one under another identifier.
-/

namespace Remote8008.Guarantees.ReadFreshness
open Lib.Machine Source.Eb8008 Source.EtherboneWire Source.EbServer System.ReadSession
open EtherboneReply

variable {σ : Type}

/-! ## What answers the current attempt -/

theorem replyValues_eq_some {codec : Codec} {counter : Nat} {datas : List UInt8}
    {values : List UInt32} (answers : replyValues codec counter datas = some values) :
    ∃ records record w, codec.decode datas = some records ∧ records.getLast? = some record ∧
      record.writes = some w ∧ w.head.toNat = counter ∧ w.items = values := by
  cases decoded : codec.decode datas with
  | none => simp [replyValues, decoded] at answers
  | some records =>
    cases last : records.getLast? with
    | none => simp [replyValues, decoded, last] at answers
    | some record =>
      cases writes : record.writes with
      | none => simp [replyValues, decoded, last, writes] at answers
      | some w =>
        have : w.head.toNat = counter ∧ w.items = values := by
          simpa [replyValues, decoded, last, writes] using answers
        exact ⟨records, record, w, rfl, last, writes, this.1, this.2⟩

/-- A one-record packet answers by its write section. -/
theorem replyValues_packet {codec : Codec} {counter : Nat} {h : Header} {r : Record}
    {values : List UInt32} (clear : Clear h)
    (answers : replyValues codec counter (encode h [r]) = some values) :
    ∃ w, r.writes = some w ∧ w.head.toNat = counter ∧ w.items = values := by
  obtain ⟨records, record, w, decoded, last, writes, head, items⟩ := replyValues_eq_some answers
  obtain ⟨r', decodes, same⟩ := codec.packet h r clear
  obtain rfl : [r'] = records := by simpa [decodes] using decoded
  obtain rfl : r' = record := by simpa using last
  exact ⟨w, same ▸ writes, head, items⟩

theorem replyValues_probe {codec : Codec} {counter : Nat} {h : Header} (probing : Probing h) :
    replyValues codec counter (encode h [⟨0, 0, none, none⟩]) = none := by
  cases answers : replyValues codec counter (encode h [⟨0, 0, none, none⟩]) with
  | none => rfl
  | some values =>
    obtain ⟨records, record, w, decoded, last, writes, -⟩ := replyValues_eq_some answers
    have bare := codec.probe h records probing decoded record (List.mem_of_getLast? last)
    simp [bare] at writes

/-- Of the socket's own datagrams only a write can pass for an answer. -/
theorem sent_answers {codec : Codec} {counter : Nat} {q : Sent} {values : List UInt32}
    (answers : replyValues codec counter q.bytes = some values) :
    ∃ base, q.kind = .write base ∧ base.toNat = counter := by
  have speaks := q.speaks
  cases kind : q.kind with
  | read id addrs =>
    rw [kind] at speaks
    obtain ⟨h, r, clear, bytes, writeless, -⟩ := speaks
    rw [bytes] at answers
    obtain ⟨w, writes, -⟩ := replyValues_packet clear answers
    simp [writeless] at writes
  | probe =>
    rw [kind] at speaks
    obtain ⟨h, sizes, probing, bytes⟩ := speaks
    rw [bytes, replyValues_probe ⟨sizes, .inl probing⟩] at answers
    simp at answers
  | write base =>
    rw [kind] at speaks
    obtain ⟨h, r, w, clear, bytes, -, writes, head⟩ := speaks
    rw [bytes] at answers
    obtain ⟨w', writes', named, -⟩ := replyValues_packet clear answers
    obtain rfl : w = w' := by simpa [writes] using writes'
    exact ⟨base, rfl, by rw [← head, named]⟩

/-- A reply that answers comes from a read under the identifier, and holds what its
execution read. -/
theorem execution_answers {codec : Codec} (bus : Bus σ) {counter : Nat} {q : Sent} {b : σ}
    {x : Exec σ} (ran : eb8008Handle bus q.bytes b = .ok x) (replied : x.reply ≠ [])
    {values : List UInt32} (answers : replyValues codec counter x.reply = some values) :
    ∃ id addrs, q.kind = .read id addrs ∧ (UInt32.ofNat id).toNat = counter ∧
      values.length = addrs.length ∧
      x.accesses = List.zipWith Access.read (addrs.map UInt32.ofNat) values := by
  have speaks := q.speaks
  cases kind : q.kind with
  | read id addrs =>
    rw [kind] at speaks
    obtain ⟨h, r, clear, bytes, writeless, asks⟩ := speaks
    rw [bytes] at ran
    cases reads : r.reads with
    | none =>
      exact absurd (reply_of_writes bus clear.pf (by simp [reads]) ran) replied
    | some t =>
      rw [reads] at asks
      obtain ⟨answer, w, reply, writes, head, long, accesses⟩ :=
        reply_of_read bus clear.pf writeless reads ran
      rw [reply] at answers
      obtain ⟨w', writes', named, items⟩ := replyValues_packet ⟨rfl, by decide, by decide⟩ answers
      obtain rfl : w = w' := by simpa [writes] using writes'
      refine ⟨id, addrs, rfl, ?_, ?_, ?_⟩
      · rw [← asks.1, ← head, named]
      · rw [← items, long, asks.2, List.length_map]
      · rw [accesses, asks.2, items]
  | probe =>
    rw [kind] at speaks
    obtain ⟨h, -, probing, bytes⟩ := speaks
    obtain ⟨y, ran', reply⟩ := reply_of_probe bus probing [⟨0, 0, none, none⟩] b
    obtain rfl : x = y := by simpa [← bytes, ran] using ran'
    rw [reply, replyValues_probe ⟨rfl, .inr (by decide)⟩] at answers
    simp at answers
  | write base =>
    rw [kind] at speaks
    obtain ⟨h, r, w, clear, bytes, readless, -⟩ := speaks
    rw [bytes] at ran
    exact absurd (reply_of_writes bus clear.pf (by simp [readless]) ran) replied

/-! ## The invariant -/

/-- A finished call: returned values were read by an execution, since the call began, of
one of its own requests; a timeout comes after ten of them. -/
def Honest (executions : List Execution) : Reading × Outcome → Prop
  | (r, .returned answer) => ∃ i e values, r.began ≤ i ∧ executions[i]? = some e ∧
      e.request ∈ r.requests ∧ values.length = r.addrs.length ∧
      e.accesses = List.zipWith Access.read (r.addrs.map UInt32.ofNat) values ∧
      returnValue r.length values = some answer
  | (r, .timedOut) => r.tries = 10 ∧ r.requests.length = 10
  | (_, .failed) => True

theorem Honest.append {executions : List Execution} {f : Reading × Outcome}
    (honest : Honest executions f) (more : List Execution) : Honest (executions ++ more) f := by
  obtain ⟨r, outcome⟩ := f
  cases outcome with
  | returned answer =>
    obtain ⟨i, e, values, since, place, rest⟩ := honest
    have inside := (List.getElem?_eq_some_iff.mp place).1
    exact ⟨i, e, values, since, by rw [List.getElem?_append_left inside, place], rest⟩
  | timedOut => exact honest
  | failed => exact honest

/-- What is known of a call in progress. -/
structure Underway (s : Sys σ) (r : Reading) : Prop where
  began : r.began ≤ s.executions.length
  tries : r.tries ≤ 10
  requests : r.requests.length = r.tries
  current : ∀ q ∈ s.comm.sent, ∀ addrs, q.kind = .read s.comm.counter addrs →
    q ∈ r.requests ∧ addrs = r.addrs
  fresh : ∀ i e, s.executions[i]? = some e → ∀ addrs,
    e.request.kind = .read s.comm.counter addrs → r.began ≤ i

structure Sound (bus : Bus σ) (s : Sys σ) : Prop where
  ids : ∀ q ∈ s.comm.sent, ∀ id addrs, q.kind = .read id addrs → id ≤ s.comm.counter
  ran : ∀ e ∈ s.executions, e.request ∈ s.comm.sent ∧
    ∃ b x, eb8008Handle bus e.request.bytes b = .ok x ∧ x.accesses = e.accesses ∧ x.reply = e.reply
  underway : ∀ r, s.comm.reading = some r → Underway s r
  done : ∀ f ∈ s.comm.finished, Honest s.executions f

def writeBase : Kind → Option UInt32
  | .write base => some base
  | .read _ _ | .probe => none

/-- The assumption on writes: none has the current identifier as its base address. -/
def Apart (s : Sys σ) : Prop :=
  ∀ q ∈ s.comm.sent, (writeBase q.kind).map UInt32.toNat ≠ some s.comm.counter

instance (s : Sys σ) : Decidable (Apart s) := inferInstanceAs (Decidable (∀ q ∈ _, _))

theorem Sound.finish {bus : Bus σ} {s : Sys σ} (sound : Sound bus s) {counter : Nat}
    (later : s.comm.counter ≤ counter) {r : Reading} {outcome : Outcome}
    (honest : Honest s.executions (r, outcome)) :
    Sound bus { s with comm := { s.comm with counter := counter }.finish r outcome } := by
  refine ⟨fun q member id addrs kind => (sound.ids q member id addrs kind).trans later, sound.ran,
    by simp [Comm.finish], ?_⟩
  intro f member
  rcases List.mem_append.mp member with old | new
  · exact sound.done f old
  · rw [List.mem_singleton.mp new]
    exact honest

/-- A new attempt has an identifier that nothing sent so far has. -/
theorem Sound.begin {bus : Bus σ} {s : Sys σ} (sound : Sound bus s) (codec : Codec) {r : Reading}
    (began : r.began ≤ s.executions.length) (tries : r.tries < 10)
    (requests : r.requests.length = r.tries) :
    Sound bus { s with comm := s.comm.begin codec r } := by
  have older : ∀ q ∈ s.comm.sent, ∀ addrs, q.kind ≠ .read (s.comm.counter + 1) addrs := by
    intro q member addrs same
    have bound := sound.ids q member _ addrs same
    omega
  unfold Comm.begin
  dsimp only
  split
  · exact sound.finish (Nat.le_succ _) trivial
  next bytes encoded =>
    refine ⟨?_, ?_, ?_, sound.done⟩
    · intro q member id addrs kind
      rcases List.mem_append.mp member with old | new
      · exact Nat.le_succ_of_le (sound.ids q old id addrs kind)
      · rw [List.mem_singleton.mp new] at kind
        obtain ⟨rfl, -⟩ : s.comm.counter + 1 = id ∧ r.addrs = addrs := by simpa using kind
        exact Nat.le_refl _
    · intro e member
      obtain ⟨inSent, ran⟩ := sound.ran e member
      exact ⟨List.mem_append_left _ inSent, ran⟩
    · intro r' same
      obtain rfl : _ = r' := Option.some.inj same
      refine ⟨began, tries, by simp [requests], ?_, ?_⟩
      · intro q member addrs kind
        rcases List.mem_append.mp member with old | new
        · exact absurd kind (older q old addrs)
        · rw [List.mem_singleton.mp new] at kind ⊢
          have asked : r.addrs = addrs := by simpa using kind
          exact ⟨by simp, asked.symm⟩
      · intro i e place addrs kind
        exact absurd kind (older _ (sound.ran e (List.mem_of_getElem? place)).1 addrs)

/-- Whatever answers the current attempt was read for it. -/
theorem Sound.answered {bus : Bus σ} {s : Sys σ} (sound : Sound bus s) {codec : Codec}
    (few : s.comm.counter < 2 ^ 32) (apart : Apart s) {r : Reading}
    (reading : s.comm.reading = some r) {datas : List UInt8} (audible : Audible codec s datas)
    {values : List UInt32} (answers : replyValues codec s.comm.counter datas = some values) :
    ∃ i e, r.began ≤ i ∧ s.executions[i]? = some e ∧ e.request ∈ r.requests ∧
      values.length = r.addrs.length ∧
      e.accesses = List.zipWith Access.read (r.addrs.map UInt32.ofNat) values := by
  rcases audible with ⟨q, member, rfl⟩ | ⟨e, member, rfl, replied⟩ | noise
  · obtain ⟨base, kind, same⟩ := sent_answers answers
    exact absurd (by simp [kind, writeBase, same]) (apart q member)
  · obtain ⟨inSent, b, x, ran, accesses, reply⟩ := sound.ran e member
    rw [← reply] at answers replied
    obtain ⟨id, addrs, kind, named, long, made⟩ := execution_answers bus ran replied answers
    have bound := sound.ids e.request inSent id addrs kind
    obtain rfl : id = s.comm.counter := by
      rw [UInt32.toNat_ofNat'] at named
      omega
    have underway := sound.underway r reading
    obtain ⟨own, rfl⟩ := underway.current e.request inSent addrs kind
    obtain ⟨i, place⟩ := List.mem_iff_getElem?.mp member
    exact ⟨i, e, underway.fresh i e place _ kind, place, own, long, accesses ▸ made⟩
  · simp [replyValues, noise] at answers

theorem Sound.broadcast {bus : Bus σ} {s : Sys σ} (sound : Sound bus s) {datagram : Sent}
    (other : Kind.isRead datagram.kind = false) :
    Sound bus { s with comm := { s.comm with sent := s.comm.sent ++ [datagram] } } := by
  have kept : ∀ q ∈ s.comm.sent ++ [datagram], ∀ id addrs, q.kind = .read id addrs →
      q ∈ s.comm.sent := by
    intro q member id addrs kind
    rcases List.mem_append.mp member with old | new
    · exact old
    · rw [← List.mem_singleton.mp new, kind] at other
      simp [Kind.isRead] at other
  refine ⟨fun q member id addrs kind => sound.ids q (kept q member id addrs kind) id addrs kind,
    fun e member => ?_, fun r reading => ?_, sound.done⟩
  · obtain ⟨inSent, ran⟩ := sound.ran e member
    exact ⟨List.mem_append_left _ inSent, ran⟩
  · have underway := sound.underway r reading
    exact ⟨underway.began, underway.tries, underway.requests, fun q member addrs kind =>
      underway.current q (kept q member _ addrs kind) addrs kind, underway.fresh⟩

theorem Sound.execute {bus : Bus σ} {s : Sys σ} (sound : Sound bus s) {q : Sent} {x : Exec σ}
    (member : q ∈ s.comm.sent) (ran : eb8008Handle bus q.bytes s.bus = .ok x) :
    Sound bus { s with
      bus := x.bus, executions := s.executions ++ [⟨q, x.accesses, x.reply⟩] } := by
  refine ⟨sound.ids, ?_, ?_, fun f finished => (sound.done f finished).append _⟩
  · intro e inside
    rcases List.mem_append.mp inside with old | new
    · exact sound.ran e old
    · rw [List.mem_singleton.mp new]
      exact ⟨member, s.bus, x, ran, rfl, rfl⟩
  · intro r reading
    have underway := sound.underway r reading
    refine ⟨by simpa using Nat.le_succ_of_le underway.began, underway.tries, underway.requests,
      underway.current, ?_⟩
    intro i e place addrs kind
    by_cases old : i < s.executions.length
    · rw [List.getElem?_append_left old] at place
      exact underway.fresh i e place addrs kind
    · exact underway.began.trans (Nat.not_lt.mp old)

theorem Sound.step {bus : Bus σ} {s s' : Sys σ} {codec : Codec} (sound : Sound bus s)
    (few : s.comm.counter < 2 ^ 32) (apart : Apart s) (move : Move codec bus s s') :
    Sound bus s' := by
  cases move with
  | stay => exact sound
  | call addr length idle => exact sound.begin codec (Nat.le_refl _) (by simp) rfl
  | retry r reading early =>
    have underway := sound.underway r reading
    exact sound.begin codec underway.began (Nat.lt_of_le_of_ne underway.tries early)
      underway.requests
  | expire r reading last =>
    exact sound.finish (Nat.le_refl _) ⟨last, (sound.underway r reading).requests.trans last⟩
  | fail r reading => exact sound.finish (Nat.le_refl _) trivial
  | answer r reading datas audible values answer answers value =>
    obtain ⟨i, e, since, place, own, long, made⟩ :=
      sound.answered few apart reading audible answers
    exact sound.finish (Nat.le_refl _) ⟨i, e, values, since, place, own, long, made, value⟩
  | broadcast datagram other => exact sound.broadcast other
  | execute q member x ran => exact sound.execute member ran
  | disturb after =>
    exact ⟨sound.ids, sound.ran, fun r reading => ⟨(sound.underway r reading).began,
      (sound.underway r reading).tries, (sound.underway r reading).requests,
      (sound.underway r reading).current, (sound.underway r reading).fresh⟩, sound.done⟩

theorem counter_le_begin (codec : Codec) (m : Comm) (r : Reading) :
    m.counter ≤ (m.begin codec r).counter := by
  unfold Comm.begin
  dsimp only
  split <;> exact Nat.le_succ _

theorem counter_le_move {codec : Codec} {bus : Bus σ} {s s' : Sys σ} (move : Move codec bus s s') :
    s.comm.counter ≤ s'.comm.counter := by
  cases move with
  | call => exact counter_le_begin ..
  | retry => exact counter_le_begin ..
  | _ => exact Nat.le_refl _

theorem counter_le_run (codec : Codec) (bus : Bus σ) (s : Sys σ) (events : List (Event σ)) :
    s.comm.counter ≤ (run (step codec bus) s events).comm.counter := by
  apply run_invariant (fun v => s.comm.counter ≤ v.comm.counter) (fun _ => True) ?_ events
    (fun _ _ => trivial) s (Nat.le_refl _)
  intro v event _ bound
  exact bound.trans (counter_le_move (step_moves codec bus v event))

theorem sound_run (codec : Codec) (bus : Bus σ) (b : σ) (events : List (Event σ))
    (few : (run (step codec bus) (Sys.start b) events).comm.counter < 2 ^ 32)
    (apart : ∀ n, Apart (run (step codec bus) (Sys.start b) (events.take n))) :
    Sound bus (run (step codec bus) (Sys.start b) events) := by
  apply run_invariant_along (Sound bus) (fun s => s.comm.counter < 2 ^ 32 ∧ Apart s)
    (fun s event meets sound => sound.step meets.1 meets.2 (step_moves codec bus s event)) events
  · intro n
    refine ⟨?_, apart n⟩
    have later := counter_le_run codec bus
      (run (step codec bus) (Sys.start b) (events.take n)) (events.drop n)
    rw [← run_append, List.take_append_drop] at later
    omega
  · exact ⟨by simp [Sys.start], by simp [Sys.start], by simp [Sys.start], by simp [Sys.start]⟩

/-! ## Calls that are never answered -/

def Event.isTimeout : Event σ → Bool
  | .timeout => true
  | _ => false

/-- No datagram received on the way answers the attempt it meets. -/
def Dry (codec : Codec) (bus : Bus σ) : Sys σ → List (Event σ) → Prop
  | _, [] => True
  | s, event :: rest =>
    (∀ datas, event = .receive datas → replyValues codec s.comm.counter datas = none) ∧
      Dry codec bus (step codec bus s event) rest

theorem begin_encoded {codec : Codec} (m : Comm) (r : Reading)
    (encodes : (codec.encodeReads (m.counter + 1) r.addrs).isSome) :
    ∃ request, m.begin codec r = { m with
      counter := m.counter + 1
      sent := m.sent ++ [request]
      reading := some { r with tries := r.tries + 1, requests := r.requests ++ [request] } } := by
  unfold Comm.begin
  dsimp only
  split
  next refused => simp [refused] at encodes
  · exact ⟨_, rfl⟩

/-- What a dry stretch leaves of a call. -/
structure Waited (s : Sys σ) (r : Reading) (count : Nat) (s' : Sys σ) (r' : Reading) : Prop where
  reading : s'.comm.reading = some r'
  tries : r'.tries = r.tries + count
  requests : r'.requests.length = r.requests.length + count
  addr : r'.addr = r.addr
  length : r'.length = r.length
  counter : s'.comm.counter = s.comm.counter + count
  finished : s'.comm.finished = s.comm.finished

theorem Waited.trans {s s' s'' : Sys σ} {r r' r'' : Reading} {count more : Nat}
    (first : Waited s r count s' r') (second : Waited s' r' more s'' r'') :
    Waited s r (count + more) s'' r'' :=
  ⟨second.reading, by rw [second.tries, first.tries, Nat.add_assoc],
    by rw [second.requests, first.requests, Nat.add_assoc], second.addr.trans first.addr,
    second.length.trans first.length, by rw [second.counter, first.counter, Nat.add_assoc],
    second.finished.trans first.finished⟩

/-- What leaves the call, the counter and the results alone leaves the call waiting. -/
theorem Waited.idle {s s' : Sys σ} {r : Reading} (reading : s'.comm.reading = some r)
    (counter : s'.comm.counter = s.comm.counter) (finished : s'.comm.finished = s.comm.finished) :
    Waited s r 0 s' r :=
  ⟨reading, rfl, rfl, rfl, rfl, counter, finished⟩

/-- An event other than a timeout leaves an unanswered call waiting. -/
theorem waited_step (codec : Codec) (bus : Bus σ) {s : Sys σ} {r : Reading} {event : Event σ}
    (reading : s.comm.reading = some r) (other : Event.isTimeout event = false)
    (dry : ∀ datas, event = .receive datas → replyValues codec s.comm.counter datas = none) :
    Waited s r 0 (step codec bus s event) r := by
  have stays : Waited s r 0 s r := .idle reading rfl rfl
  cases event with
  | call addr length => simpa only [step, reading] using stays
  | receive datas =>
    simp only [step, reading]
    split
    · simpa only [Comm.receive, dry datas rfl] using stays
    · exact stays
  | timeout => simp [Event.isTimeout] at other
  | broadcast datagram =>
    simp only [step]
    split
    · exact stays
    · exact .idle reading rfl rfl
  | execute index =>
    simp only [step]
    split
    · exact stays
    · split
      · exact stays
      · exact .idle reading rfl rfl
  | disturb after => exact .idle reading rfl rfl

theorem waited_timeout (codec : Codec) (bus : Bus σ) {s : Sys σ} {r : Reading}
    (reading : s.comm.reading = some r) (early : r.tries < 10)
    (encodes : (codec.encodeReads (s.comm.counter + 1) r.addrs).isSome) :
    ∃ r', Waited s r 1 (step codec bus s .timeout) r' := by
  obtain ⟨request, begun⟩ := begin_encoded s.comm r encodes
  simp only [step, reading, Comm.timeout, if_neg (Nat.ne_of_lt early), begun]
  exact ⟨_, rfl, rfl, by simp, rfl, rfl, rfl, rfl⟩

theorem waited_run (codec : Codec) (bus : Bus σ) (rest : List (Event σ)) {s : Sys σ} {r : Reading}
    (reading : s.comm.reading = some r) (dry : Dry codec bus s rest)
    (room : r.tries + rest.countP Event.isTimeout ≤ 10)
    (encodes : ∀ k < rest.countP Event.isTimeout,
      (codec.encodeReads (s.comm.counter + 1 + k) r.addrs).isSome) :
    ∃ r', Waited s r (rest.countP Event.isTimeout) (run (step codec bus) s rest) r' := by
  induction rest generalizing s r with
  | nil => exact ⟨r, .idle reading rfl rfl⟩
  | cons event rest ih =>
    obtain ⟨quiet, dry⟩ := dry
    cases kind : Event.isTimeout event with
    | false =>
      rw [List.countP_cons_of_neg (by simp [kind])] at room encodes ⊢
      have here := waited_step codec bus reading kind quiet
      obtain ⟨r', later⟩ := ih here.reading dry room (by rwa [here.counter])
      exact ⟨r', by simpa using here.trans later⟩
    | true =>
      rw [List.countP_cons_of_pos (by simp [kind])] at room encodes ⊢
      obtain rfl : event = .timeout := by cases event <;> simp [Event.isTimeout] at kind; rfl
      obtain ⟨next, here⟩ := waited_timeout codec bus reading (by omega) (encodes 0 (by omega))
      have same : next.addrs = r.addrs := by
        rw [Reading.addrs, Reading.addrs, here.addr, here.length]
      obtain ⟨r', later⟩ := ih here.reading dry (by rw [here.tries]; omega) (by
        intro k inside
        have := encodes (k + 1) (by omega)
        rwa [here.counter, same,
          show s.comm.counter + 1 + 1 + k = s.comm.counter + 1 + (k + 1) by omega])
      exact ⟨r', Nat.add_comm _ 1 ▸ here.trans later⟩

/-- The call as it starts, before its first attempt. -/
def fresh (s : Sys σ) (addr : Nat) (length : Option Nat) : Reading :=
  ⟨addr, length, 0, [], s.executions.length⟩

theorem waited_call (codec : Codec) (bus : Bus σ) {s : Sys σ} (idle : s.comm.reading = none)
    {addr : Nat} {length : Option Nat}
    (encodes : (codec.encodeReads (s.comm.counter + 1) (fresh s addr length).addrs).isSome) :
    ∃ r, Waited s (fresh s addr length) 1 (step codec bus s (.call addr length)) r := by
  obtain ⟨request, begun⟩ := begin_encoded s.comm (fresh s addr length) encodes
  have called : s.comm.read codec s.executions.length addr length = _ := begun
  simp only [step, idle, called]
  exact ⟨_, rfl, rfl, by simp, rfl, rfl, rfl, rfl⟩

theorem expires (codec : Codec) (bus : Bus σ) {s : Sys σ} {r : Reading}
    (reading : s.comm.reading = some r) (last : r.tries = 10) :
    (step codec bus s .timeout).comm.finished = s.comm.finished ++ [(r, .timedOut)] := by
  simp only [step, reading, Comm.timeout, if_pos last, Comm.finish]

/-- In every run with fewer than 2^32 attempts and no write at the current identifier:
a call that returns gives the words that one execution of one of its own requests read
since the call began, in order of address; and a call of which no attempt is answered
raises `socket.timeout` at the end of its tenth attempt. -/
theorem read_returns_own_values (codec : Codec) (bus : Bus σ) (b : σ) (events : List (Event σ))
    (few : (run (step codec bus) (Sys.start b) events).comm.counter < 2 ^ 32)
    (apart : ∀ n, Apart (run (step codec bus) (Sys.start b) (events.take n))) :
    let s := run (step codec bus) (Sys.start b) events
    (∀ f ∈ s.comm.finished, Honest s.executions f) ∧
    ∀ addr length rest, s.comm.reading = none →
      (∀ k < 10, (codec.encodeReads (s.comm.counter + 1 + k) (fresh s addr length).addrs).isSome) →
      Dry codec bus (step codec bus s (.call addr length)) rest →
      rest.countP Event.isTimeout = 9 →
      let last := run (step codec bus) (step codec bus s (.call addr length)) rest
      ∃ r, last.comm.reading = some r ∧ r.addr = addr ∧ r.length = length ∧
        r.requests.length = 10 ∧ last.comm.finished = s.comm.finished ∧
        (step codec bus last .timeout).comm.finished = s.comm.finished ++ [(r, .timedOut)] := by
  intro s
  refine ⟨(sound_run codec bus b events few apart).done, ?_⟩
  intro addr length rest idle encodes dry nine last
  obtain ⟨first, called⟩ := waited_call codec bus idle (encodes 0 (by decide))
  have same : first.addrs = (fresh s addr length).addrs := by
    rw [Reading.addrs, Reading.addrs, called.addr, called.length]
  obtain ⟨r, waited⟩ := waited_run codec bus rest called.reading dry
    (by rw [called.tries, nine]; exact Nat.le_refl 10) (by
    intro k inside
    have here := encodes (k + 1) (by omega)
    rwa [called.counter, same, Nat.add_assoc _ 1 k, Nat.add_comm 1 k])
  have whole := called.trans waited
  rw [nine] at whole
  refine ⟨r, whole.reading, whole.addr, whole.length, whole.requests, whole.finished, ?_⟩
  rw [expires codec bus whole.reading whole.tries, whole.finished]

/-- The record grammar itself, as a codec. -/
def wireCodec : Codec where
  encodeReads id addrs :=
    if fits : 0 < addrs.length ∧ addrs.length ≤ 255 then
      some (encode ⟨0x10, 0x44, 0⟩ [⟨0, 0x0f, none, some ⟨UInt32.ofNat id, addrs.map UInt32.ofNat,
        by simpa using fits.1, by simpa using fits.2⟩⟩])
    else none
  decode bytes := (decode bytes).map Prod.snd
  request := by
    intro id addrs bytes encoded
    split at encoded
    · obtain rfl := Option.some.inj encoded
      exact ⟨_, _, ⟨rfl, by decide, by decide⟩, rfl, rfl, rfl, rfl⟩
    · simp at encoded
  packet h r _ := ⟨r, by simp [decode_encode], rfl⟩
  probe h records _ decoded := by
    obtain rfl : [⟨0, 0, none, none⟩] = records := by simpa [decode_encode] using decoded
    simp

def wordWrite : Record := ⟨0, 0x0f, some (.single 0xf0000004 1), none⟩

def wordRead (id : UInt32) : Record := ⟨0, 0x0f, none, some (.single id 0xf0000000)⟩

def wordReply (id value : UInt32) : Record := ⟨0, 0x0f, some (.single id value), none⟩

/-- A read whose first answer comes too late: the socket hears its own write and its own
request, then both replies. -/
def lateReply : List (Event Nat) :=
  [.broadcast ⟨encode ⟨0x10, 0x44, 0⟩ [wordWrite], .write 0xf0000004,
      ⟨_, wordWrite, _, ⟨rfl, by decide, by decide⟩, rfl, rfl, rfl, rfl⟩⟩,
    .call 0xf0000000 none, .receive (encode ⟨0x10, 0x44, 0⟩ [wordWrite]),
    .receive (encode ⟨0x10, 0x44, 0⟩ [wordRead 1]), .execute 1, .timeout,
    .receive (encode ⟨0x10, 0x44, 0⟩ [wordReply 1 7]), .execute 2,
    .receive (encode ⟨0x10, 0x44, 0⟩ [wordReply 2 8])]

/-- A bus that returns how often it was read. -/
def counting : Bus Nat := ⟨fun k _ => (UInt32.ofNat k, k + 1), fun k _ _ => k⟩

theorem lateReply_apart (n : Nat) :
    Apart (run (step wireCodec counting) (Sys.start 7) (lateReply.take n)) := by
  by_cases short : n < 9
  · interval_cases n <;> decide +kernel
  · rw [List.take_of_length_le (Nat.not_lt.mp short)]
    decide +kernel

theorem read_returns_own_values_late_reply :
    let s := run (step wireCodec counting) (Sys.start 7) lateReply
    s.comm.finished.map Prod.snd = [.returned (.word 8)] ∧
      (∀ f ∈ s.comm.finished, Honest s.executions f) ∧
      ∃ r, (step wireCodec counting (run (step wireCodec counting) (step wireCodec counting s
        (.call 0xf0000000 none)) (List.replicate 9 .timeout)) .timeout).comm.finished =
        s.comm.finished ++ [(r, .timedOut)] := by
  have both := read_returns_own_values wireCodec counting 7 lateReply (by decide +kernel)
    lateReply_apart
  refine ⟨by decide +kernel, both.1, ?_⟩
  obtain ⟨r, -, -, -, -, -, raised⟩ := both.2 0xf0000000 none (List.replicate 9 .timeout)
    (by decide +kernel) (by simp [wireCodec, fresh, Reading.addrs]) (by simp [Dry, List.replicate])
    (by decide)
  exact ⟨r, raised⟩

end Remote8008.Guarantees.ReadFreshness
