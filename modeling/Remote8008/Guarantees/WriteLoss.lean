import Remote8008.Guarantees.DrainExactlyOnce
import Remote8008.Guarantees.SendAccounting

/-!
# What lost write datagrams do to a session

Source: host/b8008net/console.py:92-166, firmware/eb8008.c:93-102. Writes are not
acknowledged (docs/VPLAN.md WIRE-5..WIRE-7), while SPEC.md S-PROD-3 promises a
stream without loss or duplication. Reads are answered correctly throughout. A
lost pop makes the next read show the same byte again, and a lost data write leaves
the count of `send` one too high; no register records either.
-/

namespace Remote8008.Guarantees.WriteLoss
open Source.Console System.ConsoleSession DrainExactlyOnce SendAccounting

variable {rxDepth txDepth : Nat}

/-- The drained bytes are a prefix of the emitted ones and, once everything has
landed, the accepted bytes are those that entered; or some call reported a problem. -/
def NoSilentLoss (s : Sys rxDepth txDepth) : Prop :=
  (s.received <+: s.emitted ∧ (s.Settled → s.accepted = s.entered)) ∨ s.reported = true

variable (rxDepth txDepth) in
theorem received_prefix (polls : Nat) (events : List Event)
    (popsKept : Event.lost .consoleRxPop ∉ events) :
    (after polls events : Sys rxDepth txDepth).received <+:
      (after polls events : Sys rxDepth txDepth).emitted := by
  obtain ⟨pending, aligned⟩ :=
    after_aligned rxDepth txDepth polls events popsKept
  exact ⟨_, by rw [← List.append_assoc]; exact aligned.stream⟩

variable (rxDepth txDepth) in
theorem accepted_entered (polls : Nat) (events : List Event)
    (dataKept : Event.lost .consoleTxData ∉ events) :
    let s : Sys rxDepth txDepth := after polls events
    ∃ pending, s.accepted ++ pending = s.entered ++ txInFlight s.flight ∧
      (s.session = none → pending = []) := by
  intro s
  obtain ⟨pending, counted⟩ :=
    after_counted rxDepth txDepth polls events dataKept
  refine ⟨pending, counted.account, fun idle => ?_⟩
  cases counted.phase <;> simp_all [s]

/-- A session that loses no pop never duplicates or drops a received byte, one that
loses no data write counts exactly the bytes that entered or are still under way,
and one that loses neither is never silently wrong, in any state it passes. -/
theorem no_silent_loss (polls : Nat) (events : List Event)
    (popsKept : Event.lost .consoleRxPop ∉ events)
    (dataKept : Event.lost .consoleTxData ∉ events) :
    let s : Sys rxDepth txDepth := after polls events
    NoSilentLoss s ∧ s.received <+: s.emitted ∧
    ∃ pending, s.accepted ++ pending = s.entered ++ txInFlight s.flight ∧
      (s.session = none → pending = []) := by
  intro s
  have stream := received_prefix rxDepth txDepth polls events popsKept
  obtain ⟨pending, account, complete⟩ :=
    accepted_entered rxDepth txDepth polls events dataKept
  refine ⟨.inl ⟨stream, ?_⟩, stream, pending, account, complete⟩
  rintro ⟨idle, landed⟩
  rw [show (after polls events : Sys rxDepth txDepth).flight = [] from landed,
    complete idle] at account
  simpa using account

/-- One byte drained and one byte sent, every write delivered. -/
def lossless : List Event :=
  [.arrives 0x41, .calls .drain, .answered, .readReturns 0, .writes, .delivered, .answered,
   .readReturns 0, .returns, .calls (.send [0x42]), .answered, .readReturns 0, .writes,
   .delivered, .returns]

theorem no_silent_loss_lossless :
    (after 1000 lossless : Sys 4096 256).received = [0x41] ∧
    (after 1000 lossless : Sys 4096 256).accepted = [0x42] ∧
    NoSilentLoss (after 1000 lossless : Sys 4096 256) :=
  ⟨by decide +kernel, by decide +kernel,
    (no_silent_loss 1000 lossless (by decide +kernel) (by decide +kernel)).1⟩

/-- The same session with the pop and the data write lost, then an error check. -/
def writesLost : List Event :=
  [.arrives 0x41, .calls .drain, .answered, .readReturns 0, .writes, .lost .consoleRxPop,
   .answered, .readReturns 0, .writes, .delivered, .answered, .readReturns 0, .returns,
   .calls (.send [0x42]), .answered, .readReturns 0, .writes, .lost .consoleTxData, .returns,
   .calls (.checkErrors true), .answered, .readReturns 0, .returns]

/-- The byte the core emitted once is drained twice, the byte counted as accepted
never entered, and the error check finds nothing. -/
theorem silent_loss_when_writes_lost :
    (after 1000 writesLost : Sys 4096 256).emitted = [0x41] ∧
    (after 1000 writesLost : Sys 4096 256).entered = [] ∧
    (after 1000 writesLost : Sys 4096 256).log =
      [.drained [0x41, 0x41], .sent [0x42] 1, .errors 0] ∧
    (after 1000 writesLost : Sys 4096 256).Settled ∧
    ¬ NoSilentLoss (after 1000 writesLost : Sys 4096 256) := by
  have emitted : (after 1000 writesLost : Sys 4096 256).emitted = [0x41] := by decide +kernel
  have entered : (after 1000 writesLost : Sys 4096 256).entered = [] := by decide +kernel
  have log : (after 1000 writesLost : Sys 4096 256).log =
      [.drained [0x41, 0x41], .sent [0x42] 1, .errors 0] := by decide +kernel
  refine ⟨emitted, entered, log, ⟨rfl, by decide +kernel⟩, ?_⟩
  rintro (⟨stream, -⟩ | reported)
  · simp [Sys.received, log, emitted, Result.received] at stream
  · simp [Sys.reported, log, Result.reports] at reported

end Remote8008.Guarantees.WriteLoss
