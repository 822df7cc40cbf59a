import Remote8008.Guarantees.RxStream

/-!
# What `console_rx` promises

soc/console_bridge.py:51-107. The raw level of the FIFO runs ahead of the output register
on the empty edge and exceeds the depth by one when both stages are full. The exported
level is gated by `valid` and capped, and so becomes a number of bytes that can be popped
in consecutive cycles: while a word waits behind the register, a pop refills it.
-/

namespace Remote8008.Guarantees.RxSnapshot
open Lib.BufferedFifo Lib.Machine Source.ConsoleBridge RxStream

variable {rxDepth txDepth : Nat}

/-! ## The exported fields -/

theorem rxLevelCapped_le (s : State rxDepth txDepth) : s.rxLevelCapped ≤ rxDepth := by
  unfold State.rxLevelCapped
  split <;> omega

theorem rxLevelCapped_le_level (s : State rxDepth txDepth) :
    s.rxLevelCapped ≤ s.rxFifo.level := by
  unfold State.rxLevelCapped
  split <;> omega

/-- The 13 bits of the field hold the capped level. -/
theorem consoleRx_level (fits : rxDepth ≤ 4096) (s : State rxDepth txDepth) :
    s.consoleRx.level = if s.consoleRx.valid then s.rxLevelCapped else 0 := by
  have capped := rxLevelCapped_le s
  cases hout : s.rxFifo.out with
  | none => simp [State.consoleRx, hout]
  | some head =>
    have small : s.rxLevelCapped % 2 ^ 13 = s.rxLevelCapped := Nat.mod_eq_of_lt (by omega)
    simp only [State.consoleRx, hout, small, if_true]

theorem consoleRx_level_ne_zero (positive : 0 < rxDepth) (fits : rxDepth ≤ 4096)
    (s : State rxDepth txDepth) : s.consoleRx.valid = true ↔ s.consoleRx.level ≠ 0 := by
  rw [consoleRx_level fits]
  cases valid : s.consoleRx.valid with
  | false => simp
  | true =>
    have counted : 0 < s.rxFifo.level := by
      rw [s.rxFifo.level_eq_held_length, held_of_valid s valid]
      exact Nat.succ_pos _
    have shown : s.rxLevelCapped ≠ 0 := by
      unfold State.rxLevelCapped
      split <;> omega
    simpa using shown

theorem consoleRx_level_le (fits : rxDepth ≤ 4096) (s : State rxDepth txDepth) :
    s.consoleRx.level ≤ rxDepth ∧ s.consoleRx.level ≤ s.rxFifo.held.length := by
  have capped := rxLevelCapped_le s
  have held := rxLevelCapped_le_level s
  rw [s.rxFifo.level_eq_held_length] at held
  rw [consoleRx_level fits]
  split
  · exact ⟨capped, held⟩
  · exact ⟨Nat.zero_le _, Nat.zero_le _⟩

theorem consoleRx_data_of_invalid (s : State rxDepth txDepth)
    (invalid : s.consoleRx.valid = false) : s.consoleRx.data = 0 := by
  cases hout : s.rxFifo.out with
  | none => simp [State.consoleRx, hout]
  | some head => simp [State.consoleRx, hout] at invalid

/-! ## Pops in consecutive cycles -/

/-- A cycle that pops and does not reset. Anything may arrive in it. -/
def Pops (c : Cycle) : Prop := c.rst = false ∧ c.consoleRxPop = true

/-- One pop against `valid`. -/
theorem step_pop {s : State rxDepth txDepth} {c : Cycle} (pops : Pops c)
    (valid : s.consoleRx.valid = true) :
    consumed s c = [s.consoleRx.data] ∧ s.errRxPopWhenEmpty c = false ∧
    (s.step c).rxFifo.held = s.rxFifo.inner ++ accepted s c ∧
    (2 ≤ s.rxFifo.level → (s.step c).consoleRx.valid = true) := by
  have taken : consumed s c = [s.consoleRx.data] := by simp [consumed, pops.2, valid]
  have balance := step_balance s c pops.1
  rw [held_of_valid s valid, taken] at balance
  have readable : s.rxFifo.readable = true := by rw [← consoleRx_valid, valid]
  refine ⟨taken, ?_, by simpa using balance.symm, fun more => ?_⟩
  · simp [State.errRxPopWhenEmpty, readable]
  · rw [consoleRx_valid]
    simpa [State.step, pops.1] using
      Fifo.step_readable readable more c.phySource (s.rxSourceReady c)

/-- As many pops as the queue holds bytes, the first of them against `valid`. -/
theorem run_pops (window : List Cycle) (pops : ∀ c ∈ window, Pops c) (s : State rxDepth txDepth)
    (enough : window.length ≤ s.rxFifo.held.length)
    (valid : window ≠ [] → s.consoleRx.valid = true) :
    outputs State.step consumed s window = s.rxFifo.held.take window.length ∧
    Stepwise State.step (fun s c => s.errRxPopWhenEmpty c = false) s window := by
  induction window generalizing s with
  | nil => simp [Stepwise]
  | cons c rest ih =>
    have now := valid (List.cons_ne_nil c rest)
    obtain ⟨taken, quiet, held, refilled⟩ := step_pop (pops c (by simp)) now
    have front := held_of_valid s now
    have waiting : rest.length ≤ s.rxFifo.inner.length := by
      rw [front] at enough
      simpa using enough
    obtain ⟨later, quietLater⟩ := ih (fun d member => pops d (by simp [member])) (s.step c)
      (by rw [held, List.length_append]; omega) (fun more => refilled (by
        rw [s.rxFifo.level_eq_held_length, front, List.length_cons]
        have some := List.length_pos_of_ne_nil more
        omega))
    refine ⟨?_, quiet, quietLater⟩
    rw [outputs_cons, taken, later, held, front, List.take_append_of_le_length waiting]
    rfl

variable (rxDepth txDepth) in
/-- The fields of `console_rx` in any state that the bridge reaches. They agree with each
other, report no more than the FIFO holds, and a level of `L` stands for `L` bytes that
pops in this and the next `L - 1` cycles consume without an error. -/
theorem console_rx_never_overreports (deep : 128 ≤ rxDepth) (fits : rxDepth ≤ 4096)
    (cycles : List Cycle) :
    let s : State rxDepth txDepth := after cycles
    (s.consoleRx.valid = true ↔ s.consoleRx.level ≠ 0) ∧
    (s.consoleRx.valid = false → s.consoleRx.data = 0) ∧
    s.consoleRx.level ≤ rxDepth ∧
    s.consoleRx.level ≤ s.rxFifo.held.length ∧
    ∀ window, window.length = s.consoleRx.level → (∀ c ∈ window, Pops c) →
      outputs State.step consumed s window = s.rxFifo.held.take s.consoleRx.level ∧
      (outputs State.step consumed s window).length = s.consoleRx.level ∧
      Stepwise State.step (fun s c => s.errRxPopWhenEmpty c = false) s window := by
  intro s
  obtain ⟨withinDepth, withinHeld⟩ := consoleRx_level_le fits s
  have agrees := consoleRx_level_ne_zero (by omega) fits s
  refine ⟨agrees, consoleRx_data_of_invalid s, withinDepth, withinHeld, ?_⟩
  intro window length pops
  obtain ⟨bytes, quiet⟩ := run_pops window pops s (by omega) (fun some => agrees.mpr (by
    rw [← length]
    exact Nat.ne_of_gt (List.length_pos_of_ne_nil some)))
  rw [length] at bytes
  refine ⟨bytes, ?_, quiet⟩
  rw [bytes, List.length_take, Nat.min_eq_left withinHeld]

/-- Three bytes, of which the level shows three once the first is in the register. -/
def threeBytes : List Cycle :=
  [0x41, 0x42, 0x43].map fun byte => ⟨false, some byte, false, false, false, none, none⟩

/-- A pop in a cycle in which another byte arrives. -/
def popWhileArriving : Cycle := ⟨false, some 0x44, false, false, true, none, none⟩

theorem console_rx_never_overreports_drained :
    (after threeBytes : State 128 256).consoleRx.level = 3 ∧
    outputs State.step consumed (after threeBytes : State 128 256)
      (List.replicate 3 popWhileArriving) = [0x41, 0x42, 0x43] := by
  have level : (after threeBytes : State 128 256).consoleRx.level = 3 := by decide
  obtain ⟨-, -, -, -, drained⟩ := console_rx_never_overreports 128 256 (by decide) (by decide)
    threeBytes
  have window : (List.replicate 3 popWhileArriving).length =
      (after threeBytes : State 128 256).consoleRx.level := level.symm
  obtain ⟨bytes, -, -⟩ := drained (List.replicate 3 popWhileArriving) window (by
    intro c member
    rw [List.eq_of_mem_replicate member]
    exact ⟨rfl, rfl⟩)
  rw [bytes]
  exact ⟨level, by decide⟩

end Remote8008.Guarantees.RxSnapshot
