import Remote8008.Lib.Machine
import Remote8008.Source.EbServer

/-!
# A read call, the network and the board

host/b8008net/eb_server.py:78-115 against firmware/eb8008.c. The network forgets nothing
and promises nothing: the socket may hear any datagram it ever sent, any reply the board
ever gave, and anything that does not decode, in any order and any number of times, and
the board may execute any datagram of the socket at any time. The bus behind the board
may change between executions.
-/

namespace Remote8008.System.ReadSession
open Source.Eb8008 Source.EbServer

variable {σ : Type}

/-- One run of `eb8008_handle`. -/
structure Execution where
  request : Sent
  accesses : List Access
  reply : List UInt8

/-- The number of executions is the clock. -/
structure Sys (σ : Type) where
  bus : σ
  comm : Comm
  executions : List Execution

def Sys.start (bus : σ) : Sys σ := ⟨bus, ⟨0, [], none, []⟩, []⟩

inductive Event (σ : Type) where
  | call (addr : Nat) (length : Option Nat)
  | receive (datas : List UInt8)
  | timeout
  /-- `probe` or a write. -/
  | broadcast (datagram : Sent)
  | execute (index : Nat)
  | disturb (bus : σ)

/-- What `recvfrom` can return. -/
def Audible (codec : Codec) (s : Sys σ) (datas : List UInt8) : Prop :=
  (∃ q ∈ s.comm.sent, q.bytes = datas) ∨
  (∃ e ∈ s.executions, e.reply = datas ∧ datas ≠ []) ∨
  codec.decode datas = none

instance (codec : Codec) (s : Sys σ) (datas : List UInt8) : Decidable (Audible codec s datas) :=
  haveI : Decidable (codec.decode datas = none) :=
    decidable_of_iff ((codec.decode datas).isNone = true) Option.isNone_iff_eq_none
  inferInstanceAs (Decidable (_ ∨ _ ∨ _))

def Kind.isRead : Kind → Bool
  | .read _ _ => true
  | .probe | .write _ => false

/-- An event that is not enabled leaves the system alone. -/
def step (codec : Codec) (bus : Bus σ) (s : Sys σ) : Event σ → Sys σ
  | .call addr length =>
    match s.comm.reading with
    | none => { s with comm := s.comm.read codec s.executions.length addr length }
    | some _ => s
  | .receive datas =>
    match s.comm.reading with
    | some r => if Audible codec s datas then { s with comm := s.comm.receive codec r datas } else s
    | none => s
  | .timeout =>
    match s.comm.reading with
    | some r => { s with comm := s.comm.timeout codec r }
    | none => s
  | .broadcast datagram =>
    if Kind.isRead datagram.kind then s
    else { s with comm := { s.comm with sent := s.comm.sent ++ [datagram] } }
  | .execute index =>
    match s.comm.sent[index]? with
    | none => s
    | some q =>
      match eb8008Handle bus q.bytes s.bus with
      | .error _ => s
      | .ok x => { s with bus := x.bus, executions := s.executions ++ [⟨q, x.accesses, x.reply⟩] }
  | .disturb bus => { s with bus := bus }

/-- Everything an event can do. -/
inductive Move (codec : Codec) (bus : Bus σ) (s : Sys σ) : Sys σ → Prop where
  | stay : Move codec bus s s
  | call (addr : Nat) (length : Option Nat) (idle : s.comm.reading = none) : Move codec bus s
      { s with comm := s.comm.begin codec ⟨addr, length, 0, [], s.executions.length⟩ }
  | retry (r : Reading) (reading : s.comm.reading = some r) (early : r.tries ≠ 10) :
      Move codec bus s { s with comm := s.comm.begin codec r }
  | expire (r : Reading) (reading : s.comm.reading = some r) (last : r.tries = 10) :
      Move codec bus s { s with comm := s.comm.finish r .timedOut }
  | fail (r : Reading) (reading : s.comm.reading = some r) :
      Move codec bus s { s with comm := s.comm.finish r .failed }
  | answer (r : Reading) (reading : s.comm.reading = some r) (datas : List UInt8)
      (audible : Audible codec s datas) (values : List UInt32) (answer : Answer)
      (answers : replyValues codec s.comm.counter datas = some values)
      (value : returnValue r.length values = some answer) :
      Move codec bus s { s with comm := s.comm.finish r (.returned answer) }
  | broadcast (datagram : Sent) (other : Kind.isRead datagram.kind = false) :
      Move codec bus s { s with comm := { s.comm with sent := s.comm.sent ++ [datagram] } }
  | execute (q : Sent) (member : q ∈ s.comm.sent) (x : Exec σ)
      (ran : eb8008Handle bus q.bytes s.bus = .ok x) : Move codec bus s
      { s with bus := x.bus, executions := s.executions ++ [⟨q, x.accesses, x.reply⟩] }
  | disturb (after : σ) : Move codec bus s { s with bus := after }

theorem step_moves (codec : Codec) (bus : Bus σ) (s : Sys σ) (event : Event σ) :
    Move codec bus s (step codec bus s event) := by
  cases event with
  | call addr length =>
    simp only [step]
    split
    next idle => exact .call addr length idle
    · exact .stay
  | receive datas =>
    simp only [step]
    split
    next r reading =>
      split
      next audible =>
        unfold Comm.receive
        split
        · exact .stay
        next values answers =>
          split
          · exact .fail r reading
          next answer value => exact .answer r reading datas audible values answer answers value
      · exact .stay
    · exact .stay
  | timeout =>
    simp only [step]
    split
    next r reading =>
      unfold Comm.timeout
      split
      next last => exact .expire r reading last
      next early => exact .retry r reading early
    · exact .stay
  | broadcast datagram =>
    simp only [step]
    split
    · exact .stay
    next other => exact .broadcast datagram (by simpa using other)
  | execute index =>
    simp only [step]
    split
    · exact .stay
    next q place =>
      split
      · exact .stay
      next x ran => exact .execute q (List.mem_of_getElem? place) x ran
  | disturb after => exact .disturb after

end Remote8008.System.ReadSession
