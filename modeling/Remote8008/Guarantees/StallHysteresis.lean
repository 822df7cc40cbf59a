import Remote8008.Lib.Latch
import Remote8008.Guarantees.RxStream

/-!
# The hysteresis of `stall`

soc/console_bridge.py:163-176. `stall` is a latch of the raw level: raised at the high
mark, dropped at the low mark, kept in the open band between them. Its value is that of
the last decision, and since every byte is conserved, a rise and a later fall have the
difference of the marks in pops between them.
-/

namespace Remote8008.Guarantees.StallHysteresis
open Lib.BufferedFifo Lib.Machine Lib.Latch Source.ConsoleBridge RxStream

variable {rxDepth txDepth : Nat}

/-- The raw level of the cycle lies strictly between the marks. -/
def InBand (s : State rxDepth txDepth) : Prop :=
  lwm rxDepth < s.rxFifo.level ∧ (s.rxFifo.level : Int) < hwm rxDepth

theorem marks (rxDepth : Nat) : hwm rxDepth = lwm rxDepth + 64 := by
  simp only [lwm, rxHysteresis]
  omega

/-- One edge: raised at the high mark, kept in the band, and off otherwise. -/
theorem step_stall_iff (s : State rxDepth txDepth) (c : Cycle) :
    (s.step c).stall = true ↔ (c.rst = false ∧ hwm rxDepth ≤ s.rxFifo.level) ∨
      (s.stall = true ∧ c.rst = false ∧ InBand s) := by
  have gap := marks rxDepth
  cases rst : c.rst with
  | true => simp [State.step, rst]
  | false =>
    simp only [State.step, rst, State.nextStall, InBand, Bool.false_eq_true, ↓reduceIte]
    by_cases high : hwm rxDepth ≤ s.rxFifo.level
    · simp [high]
    · by_cases low : (s.rxFifo.level : Int) ≤ lwm rxDepth
      · simp [high, low]
      · simp [high, low]
        omega

/-- What `stall` shows, in terms of the levels of a run without a reset. -/
theorem stall_iff_last_decision (cycles : List Cycle) (noReset : ∀ c ∈ cycles, c.rst = false) :
    (after cycles : State rxDepth txDepth).stall = true ↔
      ∃ before c later, cycles = before ++ c :: later ∧
        hwm rxDepth ≤ (after before : State rxDepth txDepth).rxFifo.level ∧
        Stepwise State.step (fun s _ => InBand s)
          (after (before ++ [c]) : State rxDepth txDepth) later := by
  have raised := run_raised (fun s : State rxDepth txDepth => s.stall = true) step_stall_iff
    cycles powerOn
  rw [or_iff_right (by simp [powerOn])] at raised
  rw [after, raised]
  refine exists_congr fun before => exists_congr fun c => exists_congr fun later =>
    and_congr_right fun split => ?_
  have running : ∀ d ∈ later, ∀ s : State rxDepth txDepth,
      (d.rst = false ∧ InBand s) ↔ InBand s :=
    fun d member s => and_iff_right (noReset d (by simp [split, member]))
  rw [stepwise_congr running, and_iff_right (noReset c (by simp [split]))]
  rfl

theorem stall_kept_in_band (s : State rxDepth txDepth) (stretch : List Cycle)
    (noReset : ∀ c ∈ stretch, c.rst = false)
    (band : Stepwise State.step (fun s _ => InBand s) s stretch) :
    (run State.step s stretch).stall = s.stall := by
  have running : Stepwise State.step (fun s c => c.rst = false ∧ InBand s) s stretch :=
    (stepwise_congr (fun d member s => and_iff_right (noReset d member)) s).mpr band
  refine run_invariant_stepwise (fun v : State rxDepth txDepth => v.stall = s.stall)
    (fun v c meets same => ?_) running rfl
  have next := step_stall_iff v c
  have below : ¬ hwm rxDepth ≤ v.rxFifo.level := Int.not_le.mpr meets.2.2
  rw [and_iff_left meets, or_iff_right (fun high => below high.2), same] at next
  exact Bool.eq_iff_iff.mpr next

/-- The bytes popped between two states of a run make up the drop of the level. -/
theorem run_level_drop (s : State rxDepth txDepth) (cycles : List Cycle)
    (noReset : ∀ c ∈ cycles, c.rst = false) :
    s.rxFifo.level ≤ (outputs State.step consumed s cycles).length +
      (run State.step s cycles).rxFifo.level := by
  have conserved := run_conserves (fun s : State rxDepth txDepth => s.rxFifo.held)
    (fun _ => True) (fun _ _ _ _ => trivial)
    (fun s c running _ => step_balance s c running) cycles noReset s trivial
  have lengths := congrArg List.length conserved
  simp only [List.length_append] at lengths
  rw [Fifo.level_eq_held_length, Fifo.level_eq_held_length]
  omega

theorem consumed_length_le (s : State rxDepth txDepth) (c : Cycle) :
    (consumed s c).length ≤ 1 := by
  rw [consumed_eq_taken]
  exact Fifo.taken_length_le _ _

theorem rise_level {s : State rxDepth txDepth} {c : Cycle} (off : s.stall = false)
    (rises : (s.step c).stall = true) : hwm rxDepth ≤ s.rxFifo.level := by
  rcases (step_stall_iff s c).mp rises with ⟨-, high⟩ | ⟨on, -⟩
  · exact high
  · exact absurd (on.symm.trans off) (by decide)

theorem fall_level {s : State rxDepth txDepth} {c : Cycle} (running : c.rst = false)
    (on : s.stall = true) (falls : (s.step c).stall = false) :
    (s.rxFifo.level : Int) ≤ lwm rxDepth := by
  by_contra above
  have kept : (s.step c).stall = true := by
    apply (step_stall_iff s c).mpr
    by_cases high : hwm rxDepth ≤ s.rxFifo.level
    · exact .inl ⟨running, high⟩
    · exact .inr ⟨on, running, Int.not_le.mp above, Int.not_le.mp high⟩
  exact absurd (kept.symm.trans falls) (by decide)

variable (rxDepth txDepth) in
/-- The hysteresis over every run from power-on without a further reset. `stall` shows the
last decision; it does not change within the band; and from the cycle whose edge raises it
to a cycle whose edge drops it again at least 64 bytes are popped, all but at most one of
them after the rise. -/
theorem stall_hysteresis (cycles : List Cycle) (noReset : ∀ c ∈ cycles, c.rst = false) :
    ((after cycles : State rxDepth txDepth).stall = true ↔
      ∃ before c later, cycles = before ++ c :: later ∧
        hwm rxDepth ≤ (after before : State rxDepth txDepth).rxFifo.level ∧
        Stepwise State.step (fun s _ => InBand s)
          (after (before ++ [c]) : State rxDepth txDepth) later) ∧
    (∀ before stretch later, cycles = before ++ stretch ++ later →
      Stepwise State.step (fun s _ => InBand s) (after before : State rxDepth txDepth) stretch →
      (after (before ++ stretch) : State rxDepth txDepth).stall =
        (after before : State rxDepth txDepth).stall) ∧
    (∀ before c during d later, cycles = before ++ c :: during ++ d :: later →
      (after before : State rxDepth txDepth).stall = false →
      (after (before ++ [c]) : State rxDepth txDepth).stall = true →
      (after (before ++ c :: during) : State rxDepth txDepth).stall = true →
      (after (before ++ c :: during ++ [d]) : State rxDepth txDepth).stall = false →
      hwm rxDepth - lwm rxDepth = 64 ∧
      64 ≤ (outputs State.step consumed (after before : State rxDepth txDepth)
        (c :: during)).length ∧
      63 ≤ (outputs State.step consumed (after (before ++ [c]) : State rxDepth txDepth)
        during).length) := by
  refine ⟨stall_iff_last_decision cycles noReset, ?_, ?_⟩
  · intro before stretch later split band
    rw [after_append]
    exact stall_kept_in_band _ stretch (fun c member => noReset c (by simp [split, member])) band
  · intro before c during d later split off rises on falls
    rw [after_concat] at rises falls
    have top := rise_level off rises
    have bottom := fall_level (noReset d (by simp [split])) on falls
    have drop := run_level_drop (after before : State rxDepth txDepth) (c :: during)
      (fun e member => noReset e (by
        rcases List.mem_cons.mp member with here | there
        · simp [split, here]
        · simp [split, there]))
    have gap := marks rxDepth
    have one := consumed_length_le (after before : State rxDepth txDepth) c
    have popped : 64 ≤ (outputs State.step consumed (after before : State rxDepth txDepth)
        (c :: during)).length := by
      rw [after_append] at bottom
      omega
    refine ⟨by omega, popped, ?_⟩
    rw [after_concat]
    rw [outputs_cons, List.length_append] at popped
    omega

/-- At depth 128 the marks are 64 and 0: 64 bytes arrive, and are then popped. -/
def fill : List Cycle := List.replicate 64 ⟨false, some 0x55, false, false, false, none, none⟩

def pop : Cycle := ⟨false, none, false, false, true, none, none⟩

theorem stall_hysteresis_drained :
    (after (fill ++ [pop]) : State 128 256).stall = true ∧
    (after (fill ++ pop :: List.replicate 63 pop ++ [pop]) : State 128 256).stall = false ∧
    64 ≤ (outputs State.step consumed (after fill : State 128 256)
      (pop :: List.replicate 63 pop)).length := by
  have off : (after fill : State 128 256).stall = false := by decide +kernel
  have rises : (after (fill ++ [pop]) : State 128 256).stall = true := by decide +kernel
  have on : (after (fill ++ pop :: List.replicate 63 pop) : State 128 256).stall = true := by
    decide +kernel
  have falls : (after (fill ++ pop :: List.replicate 63 pop ++ [pop]) : State 128 256).stall =
      false := by decide +kernel
  obtain ⟨-, -, episode⟩ := stall_hysteresis 128 256
    (fill ++ pop :: List.replicate 63 pop ++ [pop]) (by decide +kernel)
  obtain ⟨-, popped, -⟩ := episode fill pop (List.replicate 63 pop) pop [] rfl off rises on falls
  exact ⟨rises, falls, popped⟩

end Remote8008.Guarantees.StallHysteresis
