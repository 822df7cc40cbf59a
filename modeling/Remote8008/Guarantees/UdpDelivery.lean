import Remote8008.Guarantees.FrameDispatch

/-!
# Which datagrams reach a callback

firmware/udp.c:657-703,721-784. `process_frame` and `process_udp` filter the destination
one after the other, and three lengths of the frame have to agree. Together they call the
unicast callback for well-formed datagrams to `my_ip`, the broadcast callback for
well-formed broadcasts and in place of a missing unicast callback, and nothing for any
other frame.
-/

namespace Remote8008.Guarantees.UdpDelivery
open Lib.Memory Source.Firmware Source.UdpTransmit Source.UdpReceive FirmwareEffects

variable {σ : Type}

/-- The calls of `process_udp` in a trace. -/
def invocations (trace : List Obs) : List (Callback × Datagram) :=
  trace.filterMap fun o => match o with | .callback target d => some (target, d) | _ => none

theorem invocations_append (first second : List Obs) :
    invocations (first ++ second) = invocations first ++ invocations second :=
  List.filterMap_append ..

theorem invocations_quiet {seen : List Obs} (quiet : ∀ o ∈ seen, Obs.quiet o) :
    invocations seen = [] := by
  apply List.filterMap_eq_nil_iff.mpr
  intro o member
  cases o with
  | callback target d => exact (quiet _ member).elim
  | _ => rfl

theorem invocations_calls (calls : List (Callback × Datagram)) :
    invocations (calls.map fun call => .callback call.1 call.2) = calls := by
  induction calls with
  | nil => rfl
  | cons call rest ih => exact congrArg (call :: ·) ih

/-- A frame makes the one call its delivery says. -/
theorem processFrame_invocations (f : RxFrame) (w : World σ) :
    invocations (processFrame f w).trace = invocations w.trace ++ (delivery w f).toList := by
  obtain ⟨extra, trace, quiet⟩ := processFrame_trace f w
  rw [trace, invocations_append, invocations_append, invocations_calls, invocations_quiet quiet,
    List.append_nil]

/-! ## The filters -/

/-- The unicast callback has to be called. -/
structure UnicastDue (f : RxFrame) (w : World σ) : Prop where
  set : w.rxCallback ≠ none
  shape : WellFormedUdp f
  mine : ipDst f = w.myIp

/-- The broadcast callback has to be called. -/
structure BroadcastDue (f : RxFrame) (w : World σ) : Prop where
  set : w.bxCallback ≠ none
  shape : WellFormedUdp f
  passes : (ipDst f ≠ w.myIp ∧ (ipDst f = limitedBroadcast ∨ ipDst f = w.myIp ||| 0xff)) ∨
    (ipDst f = w.myIp ∧ w.rxCallback = none)

theorem not_both_due {f : RxFrame} {w : World σ} (unicast : UnicastDue f w) :
    ¬ BroadcastDue f w := by
  intro broadcast
  rcases broadcast.passes with ⟨other, -⟩ | ⟨-, unset⟩
  · exact other unicast.mine
  · exact unicast.set unset

theorem delivery_unicast {f : RxFrame} {w : World σ} (due : UnicastDue f w) :
    ∃ target, w.rxCallback = some target ∧ delivery w f = some (target, datagram f) := by
  obtain ⟨target, isSet⟩ := Option.ne_none_iff_exists'.mp due.set
  refine ⟨target, isSet, ?_⟩
  rw [delivery, if_pos due.shape]
  simp [chosenCallback, due.mine, isSet]

theorem delivery_broadcast {f : RxFrame} {w : World σ} (due : BroadcastDue f w) :
    ∃ target, w.bxCallback = some target ∧ delivery w f = some (target, datagram f) := by
  obtain ⟨target, isSet⟩ := Option.ne_none_iff_exists'.mp due.set
  refine ⟨target, isSet, ?_⟩
  rw [delivery, if_pos due.shape]
  rcases due.passes with ⟨other, broadcast⟩ | ⟨mine, unset⟩
  · simp [chosenCallback, other, broadcast, isSet]
  · simp [chosenCallback, mine, unset, isSet]

theorem delivery_none {f : RxFrame} {w : World σ} (unicast : ¬ UnicastDue f w)
    (broadcast : ¬ BroadcastDue f w) : delivery w f = none := by
  by_cases shape : WellFormedUdp f
  · have nobody : chosenCallback w (ipDst f) = none := by
      by_cases mine : ipDst f = w.myIp
      · have unset : w.rxCallback = none := by
          by_contra set
          exact unicast ⟨set, shape, mine⟩
        have unset' : w.bxCallback = none := by
          by_contra set
          exact broadcast ⟨set, shape, .inr ⟨mine, unset⟩⟩
        simp [chosenCallback, mine, unset, unset']
      · by_cases wide : ipDst f = limitedBroadcast ∨ ipDst f = w.myIp ||| 0xff
        · have unset : w.bxCallback = none := by
            by_contra set
            exact broadcast ⟨set, shape, .inl ⟨mine, wide⟩⟩
          simp [chosenCallback, mine, wide, unset]
        · simp [chosenCallback, mine, wide]
    rw [delivery, if_pos shape, nobody]
    rfl
  · rw [delivery, if_neg shape]

theorem payload_within {f : RxFrame} (shape : WellFormedUdp f) :
    42 + (udpLength f - 8) ≤ f.len := by
  have totalHigh := shape.totalHigh
  have udpLow := shape.udpLow
  have udpHigh := shape.udpHigh
  have sizes : sizeofEthernetHeader = 14 := rfl
  omega

/-- The calls a received frame makes. The callback that is due, and only it, is called once,
with the addresses, the ports and the payload of the frame; no other frame makes a call. -/
theorem udp_delivery_exact (f : RxFrame) (w : World σ) : ∃ calls,
    invocations (processFrame f w).trace = invocations w.trace ++ calls ∧
    (UnicastDue f w → ∃ target, w.rxCallback = some target ∧ calls = [(target, datagram f)]) ∧
    (BroadcastDue f w → ∃ target, w.bxCallback = some target ∧ calls = [(target, datagram f)]) ∧
    (calls ≠ [] → UnicastDue f w ∨ BroadcastDue f w) ∧
    ¬ (UnicastDue f w ∧ BroadcastDue f w) ∧
    (∀ target d, (target, d) ∈ calls ↔ d = datagram f ∧
      (UnicastDue f w ∧ w.rxCallback = some target ∨
        BroadcastDue f w ∧ w.bxCallback = some target)) ∧
    (WellFormedUdp f → datagram f = ⟨load32 f.raw 26, load16 f.raw 34, load16 f.raw 36,
        load f.raw 42 (udpLength f - 8)⟩ ∧
      42 + (udpLength f - 8) ≤ f.len) := by
  refine ⟨(delivery w f).toList, processFrame_invocations f w, ?_, ?_, ?_, ?_, ?_, ?_⟩
  · intro due
    obtain ⟨target, isSet, delivered⟩ := delivery_unicast due
    exact ⟨target, isSet, by rw [delivered]; rfl⟩
  · intro due
    obtain ⟨target, isSet, delivered⟩ := delivery_broadcast due
    exact ⟨target, isSet, by rw [delivered]; rfl⟩
  · intro called
    by_contra neither
    obtain ⟨unicast, broadcast⟩ := not_or.mp neither
    rw [delivery_none unicast broadcast] at called
    exact called rfl
  · exact fun both => not_both_due both.1 both.2
  · intro target d
    by_cases unicast : UnicastDue f w
    · obtain ⟨own, isSet, delivered⟩ := delivery_unicast unicast
      simp [delivered, isSet, unicast, not_both_due unicast, and_comm, eq_comm]
    · by_cases broadcast : BroadcastDue f w
      · obtain ⟨own, isSet, delivered⟩ := delivery_broadcast broadcast
        simp [delivered, isSet, unicast, broadcast, and_comm, eq_comm]
      · simp [delivery_none unicast broadcast, unicast, broadcast]
  · exact fun shape => ⟨rfl, payload_within shape⟩

end Remote8008.Guarantees.UdpDelivery
