import Remote8008.Guarantees.RxBackpressure
import Remote8008.System.BridgeSession

/-!
# One `drain` releases a stalled core

host/b8008net/console.py:61-120 against soc/console_bridge.py:79-107,163-176. While
`stall` is asserted the level is at or above the low watermark, so the output register
holds a byte and `drain` does not see an empty FIFO. Each pop it issues lowers the level,
so the level crosses the watermark long before the byte bound of `drain` is used up.
-/

namespace Remote8008.Guarantees.DrainReleases
open Lib.BufferedFifo Lib.Interaction Lib.Machine
open Source.ConsoleBridge Source.Console Source.ConsolePump System.BridgeSession

variable {rxDepth txDepth : Nat}

/-! ## The operations of `drain` -/

/-- Pops issued, and what the last read showed if no pop came after it. -/
structure Progress where
  popped : Nat
  shown : Option Item

def drains : Monitor Port Item Progress where
  follow h
    | .read _ item => ⟨h.popped, some item⟩
    | .write _ _ => ⟨h.popped + 1, none⟩
  allows h
    | .read port _ => port = .csr .consoleRx
    | .write port _ => port = .csr .consoleRxPop ∧ h.shown ≠ none

/-- The two ways `drain` ends. -/
def Drained (h : Progress) : Prop :=
  (∃ item, h.shown = some item ∧ ¬ ShowsByte item) ∨ h.popped = drainMaxBytes

theorem drainLoop_meets (left : Nat) (out : List UInt8) (h : Progress)
    (bound : h.popped + left = drainMaxBytes) :
    (onBus (drainLoop left out)).Wp drains (fun _ h => Drained h) h := by
  induction left generalizing out h with
  | zero => exact .inr bound
  | succ left ih =>
    intro item
    refine ⟨rfl, ?_⟩
    change (onBus (if item.toWord &&& rxValidBit = 0 then _ else _)).Wp drains _
      ⟨h.popped, some item⟩
    split
    next empty => exact .inl ⟨item, rfl, by simpa [ShowsByte] using empty⟩
    next valid =>
      refine ⟨⟨rfl, by simp⟩, ih _ ⟨h.popped + 1, none⟩ ?_⟩
      simp only
      omega

theorem drain_meets : (onBus drain).Wp drains (fun _ h => Drained h) ⟨0, none⟩ :=
  drainLoop_meets drainMaxBytes [] ⟨0, none⟩ (Nat.zero_add _)

/-! ## A stalled bridge shows a byte -/

/-- The level of a stalled bridge is at least the low watermark: it was above it one
cycle ago, when `stall` was decided, and a cycle takes one byte. -/
structure Steady (s : State rxDepth txDepth) : Prop where
  primed : s.rxFifo.Primed
  high : s.stall = true → lwm rxDepth ≤ s.rxFifo.level

theorem step_steady (s : State rxDepth txDepth) (c : Cycle) : Steady (s.step c) := by
  cases hrst : c.rst with
  | true =>
    refine ⟨?_, ?_⟩
    · simpa [State.step, hrst] using Fifo.empty_primed
    · simp [State.step, hrst]
  | false =>
    have edge : (s.step c).rxFifo = s.rxFifo.step c.phySource (s.rxSourceReady c) := by
      simp [State.step, hrst]
    refine ⟨?_, fun stalled => ?_⟩
    · rw [edge]
      exact s.rxFifo.step_primed _ _
    · have decided : s.nextStall = true := by simpa [State.step, hrst] using stalled
      have marks : lwm rxDepth + 64 = hwm rxDepth := by simp [lwm, rxHysteresis]
      have above : lwm rxDepth < s.rxFifo.level := by
        unfold State.nextStall at decided
        split at decided
        · omega
        · split at decided
          · simp at decided
          · omega
      have balance := s.rxFifo.step_level c.phySource (s.rxSourceReady c)
      have one := s.rxFifo.taken_length_le (s.rxSourceReady c)
      rw [edge]
      omega

theorem after_steady (cycles : List Cycle) : Steady (after cycles : State rxDepth txDepth) := by
  refine run_invariant Steady (fun _ => True) (fun s c _ _ => step_steady s c) cycles
    (fun _ _ => trivial) _ ⟨Fifo.empty_primed, by simp [powerOn]⟩

theorem Steady.readable {s : State rxDepth txDepth} (steady : Steady s) (deep : 130 ≤ rxDepth)
    (stalled : s.stall = true) : s.rxFifo.readable = true := by
  have level := steady.high stalled
  simp only [lwm, hwm, rxHeadroom, rxHysteresis] at level
  exact steady.primed.readable (by omega)

theorem showsByte_iff (s : State rxDepth txDepth) :
    ShowsByte (.word (readCsr s .consoleRx)) ↔ s.rxFifo.readable = true := by
  rw [← Bool.not_eq_false, ← consoleRx_valid]
  exact not_congr (rxWord_valid s.consoleRx)

theorem Steady.showsByte {s : State rxDepth txDepth} (steady : Steady s) (deep : 130 ≤ rxDepth)
    (stalled : s.stall = true) : ShowsByte (.word (readCsr s .consoleRx)) :=
  (showsByte_iff s).mpr (steady.readable deep stalled)

theorem pop_taken {b : State rxDepth txDepth} (readable : b.rxFifo.readable = true) {c : Cycle}
    (pop : c.consoleRxPop = true) : (b.rxFifo.taken (b.rxSourceReady c)).length = 1 := by
  obtain ⟨byte, out⟩ := Option.isSome_iff_exists.mp readable
  simp [Fifo.taken, State.rxSourceReady, pop, readable, out]

/-- A pop that arrives at a stalled bridge takes a byte. -/
theorem pop_lowers {b : State rxDepth txDepth} (readable : b.rxFifo.readable = true) {c : Cycle}
    (pop : c.consoleRxPop = true) :
    (b.step c).rxFifo.level + 1 ≤ b.rxFifo.level + c.phySource.toList.length := by
  cases hrst : c.rst with
  | true =>
    have byte : 1 ≤ b.rxFifo.level := by simp [Fifo.level, readable]
    simp only [State.step, hrst, if_true, Fifo.level_empty]
    omega
  | false =>
    have balance := b.rxFifo.step_level c.phySource (b.rxSourceReady c)
    have stored := b.rxFifo.stored_length_le_toList c.phySource
    have taken := pop_taken readable pop
    have edge : (b.step c).rxFifo = b.rxFifo.step c.phySource (b.rxSourceReady c) := by
      simp [State.step, hrst]
    rw [edge]
    omega

/-! ## A call of `drain` -/

def arriving : Obs rxDepth txDepth (List UInt8) → Nat
  | .edge _ c => c.phySource.toList.length
  | .op _ | .called | .returned _ => 0

/-- Bytes the PHY has presented. -/
def arrivals (trace : List (Obs rxDepth txDepth (List UInt8))) : Nat := (trace.map arriving).sum

theorem arrivals_concat (trace : List (Obs rxDepth txDepth (List UInt8)))
    (obs : Obs rxDepth txDepth (List UInt8)) :
    arrivals (trace ++ [obs]) = arrivals trace + arriving obs := by
  simp [arrivals]

def progress (trace : List (Obs rxDepth txDepth (List UInt8))) : Progress :=
  drains.after ⟨0, none⟩ (operations trace)

theorem progress_op (trace : List (Obs rxDepth txDepth (List UInt8))) (o : Op Port Item) :
    progress (trace ++ [.op o]) = drains.follow (progress trace) o := by
  rw [progress, operations_append, operations_op, drains.after_concat]
  rfl

/-- `drain` at work while `stall` has not been released: every read showed a byte, and the
pops that arrived have each lowered the level. -/
structure Draining (s : Sys rxDepth txDepth (List UInt8)) : Prop where
  steady : Steady s.bridge
  level : s.bridge.rxFifo.level + (progress s.trace).popped ≤
    rxDepth + 1 + arrivals s.trace + s.flight.length
  single : s.flight = [] ∨ ∃ value, s.flight = [(.consoleRxPop, value)]
  landed : (progress s.trace).shown ≠ none → s.flight = []
  fresh : ∀ item, (progress s.trace).shown = some item → ShowsByte item
  valid : ∀ port item, .op (.read port item) ∈ s.trace → ShowsByte item
  unreturned : ∀ out, .returned out ∉ s.trace

/-- The core is stalled and has added few bytes. -/
def Stalled (s : Sys rxDepth txDepth (List UInt8)) : Prop :=
  s.bridge.stall = true ∧ arrivals s.trace ≤ 3

section
variable {s : Sys rxDepth txDepth (List UInt8)}

theorem Draining.popped_le (draining : Draining s) (stalled : Stalled s) :
    (progress s.trace).popped ≤ 133 := by
  have high := draining.steady.high stalled.1
  have level := draining.level
  have few := stalled.2
  have one : s.flight.length ≤ 1 := by
    rcases draining.single with none | ⟨value, one⟩
    · simp [none]
    · simp [one]
  simp only [lwm, hwm, rxHeadroom, rxHysteresis] at high
  omega

/-- Neither end of `drain` is in sight while the core is stalled. -/
theorem Draining.unfinished (draining : Draining s) (stalled : Stalled s)
    (conforms : Conforms drains ⟨0, none⟩ (fun _ => True) (fun _ h => Drained h) s)
    (out : List UInt8) : s.session ≠ some (.ret out) := by
  intro finished
  rcases conforms.running _ finished with ⟨item, last, empty⟩ | full
  · exact empty (draining.fresh item last)
  · have popped := draining.popped_le stalled
    change (progress s.trace).popped = 4096 at full
    omega

/-- What a cycle changes: the level, by what the PHY adds and a pop takes. -/
theorem Draining.clocked (draining : Draining s) (c : Cycle) {flight : List (Reg × Nat)}
    (level : (s.bridge.step c).rxFifo.level + s.flight.length ≤
      s.bridge.rxFifo.level + c.phySource.toList.length + flight.length)
    (single : flight = [] ∨ ∃ value, flight = [(.consoleRxPop, value)])
    (landed : s.flight = [] → flight = []) :
    Draining ⟨s.bridge.step c, s.session, flight, s.trace ++ [.edge s.bridge c]⟩ := by
  have same : progress (s.trace ++ [.edge s.bridge c]) = progress s.trace := by simp [progress]
  refine ⟨step_steady _ _, ?_, single, ?_, ?_, ?_, ?_⟩
  · have before := draining.level
    simp only [same, arrivals_concat, arriving]
    omega
  · rw [same]
    exact fun shown => landed (draining.landed shown)
  · rw [same]
    exact draining.fresh
  · simpa using draining.valid
  · simpa using draining.unreturned

theorem Draining.lands (draining : Draining s) (deep : 130 ≤ rxDepth)
    (stalled : s.bridge.stall = true) (env : Cycle) {reg : Reg} {value : Nat}
    {rest : List (Reg × Nat)} (first : s.flight = (reg, value) :: rest) :
    Draining { s with
      bridge := s.bridge.step (strobe env value reg)
      flight := rest
      trace := s.trace ++ [.edge s.bridge (strobe env value reg)] } := by
  obtain ⟨rfl, rfl⟩ : reg = .consoleRxPop ∧ rest = [] := by
    rcases draining.single with none | ⟨other, one⟩
    · simp [none] at first
    · have same := first.symm.trans one
      simp only [List.cons.injEq, Prod.mk.injEq] at same
      exact ⟨same.1.1, same.2⟩
  refine draining.clocked _ ?_ (.inl rfl) fun _ => rfl
  have readable := draining.steady.readable deep stalled
  have lowered := pop_lowers readable (c := strobe env value .consoleRxPop) rfl
  simp only [first, List.length_singleton, List.length_nil]
  omega

theorem Draining.op (draining : Draining s) (o : Op Port Item) (next : Client (List UInt8))
    {flight : List (Reg × Nat)}
    (level : (drains.follow (progress s.trace) o).popped + s.flight.length ≤
      (progress s.trace).popped + flight.length)
    (single : flight = [] ∨ ∃ value, flight = [(.consoleRxPop, value)])
    (landed : (drains.follow (progress s.trace) o).shown ≠ none → flight = [])
    (fresh : ∀ item, (drains.follow (progress s.trace) o).shown = some item → ShowsByte item)
    (valid : ∀ port item, o = .read port item → ShowsByte item) :
    Draining ⟨s.bridge, some next, flight, s.trace ++ [.op o]⟩ := by
  refine ⟨draining.steady, ?_, single, ?_, ?_, ?_, ?_⟩
  · have before := draining.level
    simp only [progress_op, arrivals_concat, arriving]
    omega
  · rwa [progress_op]
  · rwa [progress_op]
  · intro port item member
    rcases List.mem_append.mp member with old | new
    · exact draining.valid port item old
    · exact valid port item (by simpa using (List.mem_singleton.mp new).symm)
  · simpa using draining.unreturned

theorem Draining.step {s' : Sys rxDepth txDepth (List UInt8)}
    {program : Empty → Client (List UInt8)} {event : Event Empty} (deep : 130 ≤ rxDepth)
    (delivered : event ≠ .lost) (stalled : Stalled s) (move : Move program s event s')
    (conforms : Conforms drains ⟨0, none⟩ (fun _ => True) (fun _ h => Drained h) s)
    (draining : Draining s) : Draining s' := by
  cases move with
  | stay => exact draining
  | edge env =>
    refine draining.clocked env ?_ draining.single id
    have grows := RxBackpressure.step_rxLevel_le s.bridge env
    omega
  | lands env reg value rest first => exact draining.lands deep stalled.1 env first
  | read input reg next reading landed =>
    obtain rfl : reg = .consoleRx := by
      simpa [drains] using (conforms.running _ reading (.word 0)).1
    have shows := draining.steady.showsByte deep stalled.1
    refine draining.op _ _ (Nat.le_refl _) draining.single (fun _ => landed) ?_ ?_
    · rintro item last
      obtain rfl : _ = item := Option.some.inj last
      exact shows
    · rintro port item same
      obtain ⟨-, rfl⟩ : .csr .consoleRx = port ∧ .word (readCsr s.bridge .consoleRx) = item := by
        simpa using same
      exact shows
  | input input next reading =>
    have refused := (conforms.running _ reading (.word 0)).1
    simp [drains] at refused
  | write input reg item next writing =>
    obtain ⟨same, shown⟩ := (conforms.running _ writing).1
    obtain rfl : reg = .consoleRxPop := by simpa using same
    have landed : s.flight = [] := draining.landed shown
    refine draining.op _ _ ?_ ?_ ?_ ?_ (by simp)
    · simp [drains, landed]
    · exact .inr ⟨item.toWord, by simp [landed]⟩
    · exact fun none => absurd rfl none
    · simp [drains]
  | output input port item next writing stream =>
    exact absurd (conforms.running _ writing).1.1 (stream _)
  | lost => exact absurd rfl delivered
  | calls call => exact call.elim
  | returns out finished => exact absurd finished (draining.unfinished stalled conforms out)

end

/-- A call of `drain` on the bridge after `cycles`. -/
def drainRun (cycles : List Cycle) (events : List (Event Empty)) :
    Sys rxDepth txDepth (List UInt8) :=
  run (step fun call : Empty => call.elim) (.start (after cycles) (some (onBus drain))) events

/-- `out` is the result of the call. -/
def Returns (s : Sys rxDepth txDepth (List UInt8)) (out : List UInt8) : Prop :=
  s.session = some (.ret out) ∨ .returned out ∈ s.trace

/-- `stall` has not been released up to this point of the call. -/
def StalledUpTo (s : Nat → Sys rxDepth txDepth (List UInt8)) (n : Nat) : Prop :=
  ∀ m ≤ n, (s m).bridge.stall = true

theorem drainRun_draining (deep : 130 ≤ rxDepth) (cycles : List Cycle)
    (events : List (Event Empty)) (delivered : ∀ event ∈ events, event ≠ .lost)
    (stalled : ∀ n, Stalled (drainRun cycles (events.take n) : Sys rxDepth txDepth _)) :
    let s : Sys rxDepth txDepth _ := drainRun cycles events
    Conforms drains ⟨0, none⟩ (fun _ => True) (fun _ h => Drained h) s ∧ Draining s := by
  refine run_invariant_under (fun s : Sys rxDepth txDepth _ =>
    Conforms drains ⟨0, none⟩ (fun _ => True) (fun _ h => Drained h) s ∧ Draining s)
    Stalled (· ≠ .lost) ?_ events delivered _ stalled ⟨⟨?_, ?_, ?_⟩, ?_⟩
  · rintro s event arrives held ⟨conforms, draining⟩
    have move := step_moves (fun call : Empty => call.elim) s event
    constructor
    · exact conforms.step (fun _ _ _ => trivial) (fun call => call.elim) move
    · exact draining.step deep arrives held move conforms
  · simp [Sys.start, Monitor.Allowed]
  · exact fun _ => trivial
  · intro p same
    obtain rfl : onBus drain = p := Option.some.inj same
    exact drain_meets
  · constructor
    · exact after_steady cycles
    · exact (after cycles : State rxDepth txDepth).rxFifo.level_le
    · exact .inl rfl
    · exact fun _ => rfl
    · simp [Sys.start, progress, Monitor.after]
    · simp [Sys.start]
    · simp [Sys.start]

/-- At the shipped parameters, from every reachable state, with at most three more bytes
while `stall` stays asserted and every pop delivered: as long as `stall` has not been
released each read of `drain` shows a byte, it has issued at most 133 pops and it has not
returned. So by the time it returns `stall` has been released. -/
theorem drain_releases_stall (cycles : List Cycle) (events : List (Event Empty))
    (delivered : ∀ event ∈ events, event ≠ .lost)
    (few : ∀ n, StalledUpTo (fun m => (drainRun cycles (events.take m) : Sys 4096 txDepth _)) n →
      arrivals (drainRun cycles (events.take n) : Sys 4096 txDepth _).trace ≤ 3) (n : Nat) :
    let s := fun m => (drainRun cycles (events.take m) : Sys 4096 txDepth (List UInt8))
    (StalledUpTo s n →
      (∀ port item, .op (.read port item) ∈ (s n).trace → ShowsByte item) ∧
      (progress (s n).trace).popped ≤ 133 ∧ ∀ out, ¬ Returns (s n) out) ∧
    ∀ out, Returns (s n) out → ∃ m ≤ n, (s m).bridge.stall = false := by
  intro s
  have held : StalledUpTo s n →
      (∀ port item, .op (.read port item) ∈ (s n).trace → ShowsByte item) ∧
      (progress (s n).trace).popped ≤ 133 ∧ ∀ out, ¬ Returns (s n) out := by
    intro still
    have stalled : ∀ m,
        Stalled (drainRun cycles ((events.take n).take m) : Sys 4096 txDepth _) := by
      intro m
      rw [List.take_take]
      constructor
      · exact still _ (Nat.min_le_right m n)
      · exact few _ fun k small => still k (Nat.le_trans small (Nat.min_le_right m n))
    obtain ⟨conforms, draining⟩ := drainRun_draining (by decide) cycles (events.take n)
      (fun event member => delivered event (List.mem_of_mem_take member)) stalled
    have now : Stalled (s n) := ⟨still n (Nat.le_refl n), few n still⟩
    refine ⟨draining.valid, draining.popped_le now, fun out returns => ?_⟩
    rcases returns with finished | returned
    · exact draining.unfinished now conforms out finished
    · exact draining.unreturned out returned
  refine ⟨held, fun out returns => ?_⟩
  by_contra never
  push Not at never
  exact (held fun m small => by simpa using never m small).2.2 out returns

/-- The core emits and nobody reads. -/
def emitting : Cycle := { quiet with phySource := some 0x55 }

theorem emitting_level (n : Nat) (fits : n ≤ 4096) :
    (after (List.replicate n emitting) : State 4096 256).rxFifo.level = n := by
  induction n with
  | zero => rfl
  | succ n ih =>
    have level := ih (by omega)
    rw [List.replicate_succ', after_concat]
    generalize (after (List.replicate n emitting) : State 4096 256) = s at level ⊢
    have room := s.rxFifo.writable_of_level_lt (by omega)
    have balance := s.rxFifo.step_level (some 0x55) false
    rw [s.rxFifo.stored_of_writable _ room] at balance
    have edge : (s.step emitting).rxFifo = s.rxFifo.step (some 0x55) false := by
      simp [State.step, emitting, quiet, State.rxSourceReady]
    simpa [edge, level, Fifo.taken] using balance

/-- A core that has filled the FIFO up to the high watermark. -/
def stalledCore : List Cycle := List.replicate 4033 emitting

theorem stalledCore_stall : (after stalledCore : State 4096 256).stall = true := by
  have level := emitting_level 4032 (by decide)
  have last : stalledCore = List.replicate 4032 emitting ++ [emitting] := List.replicate_succ'
  rw [last, after_concat]
  generalize (after (List.replicate 4032 emitting) : State 4096 256) = s at level ⊢
  simp [State.step, State.nextStall, level, emitting, quiet, hwm, rxHeadroom]

/-! ## A drain to the end -/

/-- A read, its pop, and the cycle on which the pop lands. -/
def popRound : List (Event Empty) := [.host [], .host [], .cycle quiet true]

/-- `drain` between two rounds, with `left` iterations left and `held` bytes in the FIFO. -/
structure Emptying (left held : Nat) (s : Sys rxDepth txDepth (List UInt8)) : Prop where
  session : ∃ out, s.session = some (onBus (drainLoop left out))
  flight : s.flight = []
  level : s.bridge.rxFifo.level = held
  readable : held ≠ 0 → s.bridge.rxFifo.readable = true

section
variable {left held : Nat} {s : Sys rxDepth txDepth (List UInt8)}

theorem Emptying.round (emptying : Emptying (left + 1) (held + 1) s) :
    Emptying left held (run (step fun call : Empty => call.elim) s popRound) := by
  obtain ⟨b, _, _, trace⟩ := s
  obtain ⟨⟨out, rfl⟩, rfl, level, full⟩ := emptying
  change b.rxFifo.level = held + 1 at level
  have readable : b.rxFifo.readable = true := full (Nat.succ_ne_zero held)
  have valid : ¬ readCsr b .consoleRx &&& rxValidBit = 0 := (showsByte_iff b).mpr readable
  let pop : Cycle := strobe quiet 1 .consoleRxPop
  have edge : (b.step pop).rxFifo = b.rxFifo.step none (b.rxSourceReady pop) := rfl
  have reached : ∃ out' trace', run (step fun call : Empty => call.elim)
      ⟨b, some (onBus (drainLoop (left + 1) out)), [], trace⟩ popRound =
        ⟨b.step pop, some (onBus (drainLoop left out')), [], trace'⟩ := by
    refine ⟨out ++ [UInt8.ofNat (readCsr b .consoleRx &&& rxDataMask)],
      trace ++ [.op (.read (.csr .consoleRx) (.word (readCsr b .consoleRx)))] ++
        [.op (.write (.csr .consoleRxPop) (.word 1))] ++ [.edge b pop], ?_⟩
    simp [popRound, step, hostStep, drainLoop, Item.toWord, valid, wires, pop]
  obtain ⟨out', trace', same⟩ := reached
  rw [same]
  refine ⟨⟨out', rfl⟩, rfl, ?_, fun more => ?_⟩
  · have balance := b.rxFifo.step_level none (b.rxSourceReady pop)
    have stored := b.rxFifo.stored_length_le_toList none
    have taken := pop_taken readable (c := pop) rfl
    rw [edge]
    simp only [Option.toList_none, List.length_nil] at stored
    omega
  · rw [edge]
    exact Fifo.step_readable readable (by omega) none _

theorem Emptying.rounds (count : Nat) (emptying : Emptying (left + count) (held + count) s) :
    Emptying left held (run (step fun call : Empty => call.elim) s
      (List.replicate count popRound).flatten) := by
  induction count generalizing s with
  | zero => exact emptying
  | succ count ih =>
    rw [List.replicate_succ, List.flatten_cons, run_append]
    exact ih emptying.round

/-- The read of an empty FIFO is the last. -/
theorem Emptying.last (emptying : Emptying (left + 1) 0 s) :
    ∃ out, (step (fun call : Empty => call.elim) s (.host [])).session = some (.ret out) := by
  obtain ⟨b, _, _, trace⟩ := s
  obtain ⟨⟨out, rfl⟩, rfl, level, -⟩ := emptying
  have empty : readCsr b .consoleRx &&& rxValidBit = 0 := by
    by_contra shows
    have readable : b.rxFifo.readable = true := (showsByte_iff b).mp shows
    simp [Fifo.level, readable] at level
  exact ⟨out, by simp [step, hostStep, drainLoop, Item.toWord, empty]⟩

end

/-- Nothing comes from the PHY. -/
def Silent (event : Event Empty) : Prop :=
  ∀ env lands, event = .cycle env lands → env.phySource = none

theorem arrivals_silent (cycles : List Cycle) (events : List (Event Empty))
    (silent : ∀ event ∈ events, Silent event) :
    arrivals (drainRun cycles events : Sys rxDepth txDepth _).trace = 0 := by
  refine run_invariant (fun s : Sys rxDepth txDepth (List UInt8) => arrivals s.trace = 0) Silent
    (fun s event calm none => ?_) events silent _ rfl
  have move := step_moves (fun call : Empty => call.elim) s event
  generalize step (fun call : Empty => call.elim) s event = s' at move ⊢
  cases move with
  | stay => exact none
  | edge env =>
    have source := calm env _ rfl
    simp [arrivals_concat, none, arriving, source]
  | lands env reg value rest first =>
    have source : (strobe env value reg).phySource = .none := by
      rw [← calm env _ rfl]
      cases reg <;> rfl
    simp [arrivals_concat, none, arriving, source]
  | lost => exact none
  | _ => simp [arrivals_concat, none, arriving]

/-- Rounds until the FIFO is empty, and the read that shows it. -/
def emptyingRun (held : Nat) : List (Event Empty) :=
  (List.replicate held popRound).flatten ++ [.host []]

theorem mem_emptyingRun {held : Nat} {event : Event Empty} (member : event ∈ emptyingRun held) :
    event = .host [] ∨ event = .cycle quiet true := by
  simp only [emptyingRun, popRound, List.mem_append, List.mem_flatten, List.mem_replicate,
    List.mem_singleton] at member
  rcases member with ⟨round, ⟨-, rfl⟩, inside⟩ | last
  · simpa using inside
  · exact .inl last

theorem emptyingRun_silent (held n : Nat) : ∀ event ∈ (emptyingRun held).take n, Silent event := by
  rintro event member env lands rfl
  rcases mem_emptyingRun (List.mem_of_mem_take member) with host | cycle
  · cases host
  · cases cycle
    rfl

/-- A drain of a FIFO that holds fewer bytes than it reads at most returns. -/
theorem drainRun_returns (cycles : List Cycle) {held : Nat} (few : held < drainMaxBytes)
    (level : (after cycles : State rxDepth txDepth).rxFifo.level = held) (more : 2 ≤ held) :
    ∃ out, Returns (drainRun cycles (emptyingRun held) : Sys rxDepth txDepth _) out := by
  obtain ⟨left, rest⟩ := Nat.exists_eq_add_of_lt few
  have iterations : drainMaxBytes = left + 1 + held := by omega
  have start : Emptying (left + 1 + held) (0 + held)
      (.start (after cycles) (some (onBus drain)) : Sys rxDepth txDepth (List UInt8)) := by
    refine ⟨⟨[], ?_⟩, rfl, ?_, fun _ => ?_⟩
    · rw [drain, iterations]
      rfl
    · rw [Nat.zero_add]
      exact level
    · exact (after_steady cycles).primed.readable (by omega)
  obtain ⟨out, ended⟩ := (start.rounds held).last
  refine ⟨out, .inl ?_⟩
  rw [drainRun, emptyingRun, run_concat]
  exact ended

/-- The core stalls, `drain` finds a byte, goes on until it returns, and has released the
core by then. -/
theorem drain_releases_stall_emptied :
    let s := fun m => (drainRun stalledCore ((emptyingRun 4033).take m) : Sys 4096 256 (List UInt8))
    (s 0).bridge.stall = true ∧
    (∃ item, .op (.read (.csr .consoleRx) item) ∈ (s 1).trace ∧ ShowsByte item) ∧
    (∃ out, Returns (s (emptyingRun 4033).length) out) ∧
    ∃ m ≤ (emptyingRun 4033).length, (s m).bridge.stall = false := by
  intro s
  have delivered : ∀ event ∈ emptyingRun 4033, event ≠ .lost := by
    rintro event member rfl
    rcases mem_emptyingRun member with host | cycle
    · cases host
    · cases cycle
  have releases := @drain_releases_stall 256 stalledCore (emptyingRun 4033) delivered
    fun n _ => by simp [arrivals_silent _ _ (emptyingRun_silent 4033 n)]
  have first : (emptyingRun 4033).take 1 = [.host []] := rfl
  have still : StalledUpTo s 1 := by
    intro m small
    obtain rfl | rfl : m = 0 ∨ m = 1 := by omega
    · exact stalledCore_stall
    · simp only [s, first]
      exact stalledCore_stall
  have shows := ((releases 1).1 still).1
  have returned : ∃ out, Returns (s (emptyingRun 4033).length) out := by
    simp only [s, List.take_length]
    exact drainRun_returns stalledCore (by decide) (emitting_level 4033 (by decide)) (by decide)
  refine ⟨stalledCore_stall, ?_, returned, ?_⟩
  · simp only [s, first] at shows ⊢
    exact ⟨_, List.mem_singleton.mpr rfl, shows _ _ (List.mem_singleton.mpr rfl)⟩
  · obtain ⟨out, returns⟩ := returned
    exact (releases _).2 out returns

end Remote8008.Guarantees.DrainReleases
