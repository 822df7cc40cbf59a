import Remote8008.Guarantees.RequestServer

/-!
# What can occupy the request slot

firmware/eb_serve.c:33-75 with udp.c:657-703. Every datagram on the segment reaches
`eb_rx_callback`, whatever its port, and the magic is the gate. The gate looks at the
first two bytes of a datagram that has two: one with none or a single byte passes it,
and keeps the slot until it is served.
-/

namespace Remote8008.Guarantees.SlotGate
open Lib.Machine Source.Firmware Source.UdpTransmit Source.UdpReceive Source.EbServe Source.Eb8008
open FirmwareEffects RequestServer

variable {σ : Type}

/-- The datagrams `eb_rx_callback` was called with. -/
def received (trace : List Obs) : List Datagram :=
  trace.filterMap fun | .callback .eb d => some d | _ => none

/-- The slot as the trace tells it: taken when a request is stashed, free when it is
handled. -/
def slotStep (busy : Bool) : Obs → Bool
  | .accept _ => true
  | .handle .. => false
  | _ => busy

def meetsFree (busy : Bool) : Obs → List Datagram
  | .callback .eb d => if busy then [] else [d]
  | _ => []

/-- The datagrams `eb_rx_callback` was called with while the slot was free. -/
def unhindered (trace : List Obs) : List Datagram := outputs slotStep meetsFree false trace

def StartsWithMagic (data : List UInt8) : Prop :=
  data[0]? = some ebMagic0 ∧ data[1]? = some ebMagic1

instance (data : List UInt8) : Decidable (StartsWithMagic data) :=
  inferInstanceAs (Decidable (_ ∧ _))

/-- A datagram handed to the callback, or an operation of the board. -/
inductive Event where
  | deliver (srcMac : Mac) (d : Datagram)
  | board (event : RequestServer.Event)

def step (bus : Bus σ) (w : World σ) : Event → World σ
  | .deliver srcMac d => invoke { w with lastSrcMac := srcMac } d .eb
  | .board event => RequestServer.step bus w event

/-- The statics of the server before the first datagram, on a board in any state. -/
def idle (w : World σ) : World σ := { w with ebPending := false, trace := [] }

/-! ## The gate -/

theorem StartsWithMagic.long {data : List UInt8} (magic : StartsWithMagic data) :
    2 ≤ data.length :=
  (List.getElem?_eq_some_iff.mp magic.2).1

theorem acceptable_iff (data : List UInt8) :
    Acceptable data ↔ data.length < 2 ∨ StartsWithMagic data ∧ data.length ≤ ebBufLen := by
  have room : 2 ≤ ebBufLen := by decide
  unfold Acceptable StartsWithMagic
  by_cases short : data.length < 2
  · have fits : data.length ≤ ebBufLen := by omega
    simp [short, fits]
  · have long : 2 ≤ data.length := by omega
    simp [long, short]

theorem invoke_taken {w : World σ} {d : Datagram} (free : w.ebPending = false)
    (acceptable : Acceptable d.data) :
    (invoke w d .eb).ebPending = true ∧ (invoke w d .eb).ebStash.data = d.data ∧
      ∃ r, (invoke w d .eb).trace = w.trace ++ [.callback .eb d, .accept r] := by
  have ran := ebRxCallback_accepts (w := w.log (.callback .eb d)) free acceptable
  rw [show invoke w d .eb = ebRxCallback (w.log (.callback .eb d)) d from rfl, ran]
  refine ⟨rfl, rfl, ⟨w.lastSrcMac, d.srcIp, d.srcPort, d.dstPort, d.data⟩, ?_⟩
  simp [World.log]

theorem invoke_dropped {w : World σ} {d : Datagram}
    (reason : w.ebPending = true ∨ ¬ Acceptable d.data) :
    (invoke w d .eb).ebPending = w.ebPending ∧ (invoke w d .eb).ebStash = w.ebStash ∧
      (invoke w d .eb).trace = w.trace ++ [.callback .eb d] := by
  have ran : invoke w d .eb = w.log (.callback .eb d) := by
    rcases reason with busy | foreign
    · exact ebRxCallback_busy d busy
    · exact ebRxCallback_rejects _ foreign
  rw [ran]
  exact ⟨rfl, rfl, rfl⟩

/-! ## What is in the slot -/

theorem received_of_unhindered {busy : Bool} {trace : List Obs} {d : Datagram}
    (member : d ∈ outputs slotStep meetsFree busy trace) : d ∈ received trace := by
  induction trace generalizing busy with
  | nil => cases member
  | cons o rest ih =>
    rw [received, List.filterMap_cons]
    rcases List.mem_append.mp member with here | later
    · cases o with
      | callback target d' =>
        cases target with
        | dhcp => cases here
        | eb =>
          cases busy with
          | true => cases here
          | false =>
            obtain rfl := List.mem_singleton.mp here
            exact List.mem_cons_self
      | _ => cases here
    · split
      · exact ih later
      · exact List.mem_cons_of_mem _ (ih later)

/-- Observations that leave the slot as it is. -/
def KeepsSlot (o : Obs) : Prop := ∀ busy, slotStep busy o = busy

theorem run_slotStep {more : List Obs} (keeps : ∀ o ∈ more, KeepsSlot o) (busy : Bool) :
    run slotStep busy more = busy :=
  run_invariant (· = busy) KeepsSlot (fun _ _ same now => (same _).trans now) more keeps busy rfl

theorem keepsSlot_transmits (sent : List (List UInt8)) :
    ∀ o ∈ sent.map Obs.transmit, KeepsSlot o := by
  intro o member
  obtain ⟨frame, -, rfl⟩ := List.mem_map.mp member
  exact fun _ => rfl

/-- The trace tells whether a request waits, and a waiting request is the payload of a
datagram that found the slot free and passed the gate. -/
structure Gated (w : World σ) : Prop where
  slot : run slotStep false w.trace = w.ebPending
  waiting : w.ebPending = true →
    Acceptable w.ebStash.data ∧ ∃ d ∈ unhindered w.trace, w.ebStash.data = d.data

theorem Gated.keep {w w' : World σ} (gated : Gated w) (pending : w'.ebPending = w.ebPending)
    (stash : w'.ebStash = w.ebStash) {more : List Obs} (trace : w'.trace = w.trace ++ more)
    (keeps : ∀ o ∈ more, KeepsSlot o) : Gated w' := by
  constructor
  · rw [trace, run_append, gated.slot, run_slotStep keeps, pending]
  · intro busy
    obtain ⟨acceptable, d, known, same⟩ := gated.waiting (pending ▸ busy)
    rw [stash, trace, unhindered, outputs_append]
    exact ⟨acceptable, d, List.mem_append_left _ known, same⟩

theorem Gated.passive {w w' : World σ} (gated : Gated w) (effect : Passive w w') : Gated w' := by
  obtain ⟨sent, trace⟩ := effect.trace
  exact gated.keep effect.pending effect.stash trace (keepsSlot_transmits sent)

theorem Gated.callback {w w' : World σ} (gated : Gated w) {target : Callback} {d : Datagram}
    (pending : w'.ebPending = w.ebPending) (stash : w'.ebStash = w.ebStash)
    (trace : w'.trace = w.trace ++ [.callback target d]) : Gated w' :=
  gated.keep pending stash trace (List.forall_mem_singleton.mpr fun _ => rfl)

theorem Gated.accept {w w' : World σ} (gated : Gated w) {d : Datagram} {r : Request}
    (free : w.ebPending = false) (acceptable : Acceptable d.data) (pending : w'.ebPending = true)
    (stash : w'.ebStash.data = d.data)
    (trace : w'.trace = w.trace ++ [.callback .eb d, .accept r]) : Gated w' := by
  constructor
  · rw [trace, run_append, pending]
    rfl
  · intro _
    rw [stash, trace, unhindered, outputs_append, gated.slot, free]
    exact ⟨acceptable, d, List.mem_append_right _ List.mem_cons_self, rfl⟩

theorem Gated.deliver {w : World σ} (gated : Gated w) (d : Datagram) : Gated (invoke w d .eb) := by
  by_cases taken : w.ebPending = false ∧ Acceptable d.data
  · obtain ⟨pending, stash, r, trace⟩ := invoke_taken taken.1 taken.2
    exact gated.accept taken.1 taken.2 pending stash trace
  · have reason : w.ebPending = true ∨ ¬ Acceptable d.data := by
      cases busy : w.ebPending with
      | true => exact .inl rfl
      | false => exact .inr fun acceptable => taken ⟨busy, acceptable⟩
    obtain ⟨pending, stash, trace⟩ := invoke_dropped reason
    exact gated.callback pending stash trace

theorem Gated.service {w : World σ} (gated : Gated w) : Gated (udpService w) := by
  rcases udpService_cases w with quiet | ⟨f, rest, -, effect⟩
  · exact gated.passive quiet
  · have taken : Gated { w with inbox := rest, trace := w.trace ++ [.frame f] } :=
      gated.keep rfl rfl rfl (List.forall_mem_singleton.mpr fun _ => rfl)
    cases effect with
    | passive effect => exact taken.passive effect
    | called target shape chosen reason steady pending stash trace =>
      exact taken.callback pending stash trace
    | accepted shape chosen free acceptable steady pending stash trace =>
      exact taken.accept free acceptable pending (by rw [stash]; rfl) trace

theorem Gated.serve (bus : Bus σ) {w : World σ} (gated : Gated w) :
    Gated (ebServePending bus w) := by
  cases busy : w.ebPending with
  | false =>
    rw [ebServePending, if_neg (by simp [busy])]
    exact gated
  | true =>
    obtain ⟨x, sent, serves⟩ := ebServePending_serves bus busy (gated.waiting busy).1.2
    constructor
    · rw [serves.trace, run_append, run_cons, serves.emptied]
      exact run_slotStep (keepsSlot_transmits sent) false
    · intro still
      cases serves.emptied.symm.trans still

theorem Gated.step (bus : Bus σ) {w : World σ} (gated : Gated w) (event : Event) :
    Gated (step bus w event) := by
  cases event with
  | deliver srcMac d =>
    have same : Gated { w with lastSrcMac := srcMac } := ⟨gated.slot, gated.waiting⟩
    exact same.deliver d
  | board event =>
    cases event with
    | service => exact gated.service
    | serve => exact gated.serve bus
    | announce => exact gated.passive (udpAnnounceArp_passive w)
    | refresh ip =>
      exact udpArpRefresh_preserves Gated (fun _ h => h.service)
        (fun _ _ h => h.passive (sendArp_passive ..))
        (fun v _ _ h => h.passive (link_passive v ..)) ip w gated

theorem run_gated (bus : Bus σ) (start : World σ) (events : List Event) :
    Gated (run (step bus) (idle start) events) :=
  run_invariant Gated (fun _ => True) (fun _ event _ gated => gated.step bus event) events
    (fun _ _ => trivial) _ ⟨rfl, fun busy => by cases busy⟩

/-- In every state the server can reach: the waiting request fits the buffer and is the
payload of a datagram that was received, and it starts with the magic exactly when it has
two bytes. It always does when no datagram of fewer than two bytes found the slot free. A
datagram that finds the slot taken changes nothing in it, and one that finds it free
occupies it when it has fewer than two bytes or starts with the magic and fits. -/
theorem slot_gate (bus : Bus σ) (start : World σ) (events : List Event) :
    let w := run (step bus) (idle start) events
    (w.ebPending = true → w.ebStash.data.length ≤ ebBufLen ∧
      (∃ d ∈ received w.trace, w.ebStash.data = d.data) ∧
      (StartsWithMagic w.ebStash.data ↔ 2 ≤ w.ebStash.data.length)) ∧
    ((∀ d ∈ unhindered w.trace, 2 ≤ d.data.length) → w.ebPending = true →
      StartsWithMagic w.ebStash.data) ∧
    ∀ srcMac d, let w' := step bus w (.deliver srcMac d)
      (w.ebPending = true → w'.ebPending = true ∧ w'.ebStash = w.ebStash) ∧
      (w.ebPending = false → (w'.ebPending = true ↔
        d.data.length < 2 ∨ StartsWithMagic d.data ∧ d.data.length ≤ ebBufLen)) := by
  intro w
  have gated : Gated w := run_gated bus start events
  have magic : w.ebPending = true → 2 ≤ w.ebStash.data.length →
      StartsWithMagic w.ebStash.data := by
    intro busy long
    rcases (acceptable_iff _).mp (gated.waiting busy).1 with short | both
    · omega
    · exact both.1
  refine ⟨fun busy => ?_, fun long busy => ?_, fun srcMac d => ⟨fun busy => ?_, fun free => ?_⟩⟩
  · obtain ⟨acceptable, d, known, same⟩ := gated.waiting busy
    exact ⟨acceptable.2, ⟨d, received_of_unhindered known, same⟩, StartsWithMagic.long,
      magic busy⟩
  · obtain ⟨-, d, known, same⟩ := gated.waiting busy
    exact magic busy (same ▸ long d known)
  · obtain ⟨pending, stash, -⟩ := invoke_dropped (w := { w with lastSrcMac := srcMac }) (d := d)
      (.inl busy)
    exact ⟨pending.trans busy, stash⟩
  · rw [← acceptable_iff]
    constructor
    · intro taken
      by_contra foreign
      obtain ⟨pending, -, -⟩ := invoke_dropped (w := { w with lastSrcMac := srcMac }) (d := d)
        (.inr foreign)
      exact absurd (pending.symm.trans taken) (by simp [free])
    · intro acceptable
      exact (invoke_taken (w := { w with lastSrcMac := srcMac }) free acceptable).1

/-! ## A stray datagram -/

/-- The answer of the gateway 192.168.1.1 to the refresh. -/
def gatewayReply : RxFrame :=
  ⟨60, Lib.Memory.ofBytes ([0x10, 0xe2, 0xd5, 0, 0, 2, 2, 0, 0, 0, 0, 1, 0x08, 0x06, 0, 1, 0x08, 0,
    6, 4, 0, 2, 2, 0, 0, 0, 0, 1, 192, 168, 1, 1, 0x10, 0xe2, 0xd5, 0, 0, 2, 192, 168, 1, 50])⟩

/-- A refresh window in which a datagram of one byte comes before a probe. -/
def strayByte : World Unit :=
  { listening with
    inbox := [some { broadcastFrame [0x41] with len := 60 }, some (broadcastFrame probe),
      some gatewayReply] }

/-- The stray byte occupies the slot, the probe behind it is dropped as busy, and serving
answers neither. -/
theorem stray_byte_drops_request :
    let bus : Bus Unit := ⟨fun _ _ => (0, ()), fun _ _ _ => ()⟩
    let w := run (step bus) (idle strayByte) [.board (.refresh 0xc0a80101)]
    let served := step bus w (.board .serve)
    w.ebPending = true ∧ w.ebStash.data = [0x41] ∧ ¬ StartsWithMagic w.ebStash.data ∧
    (received w.trace).map Datagram.data = [[0x41], probe] ∧
    served.ebPending = false ∧ handled served.trace = [[0x41]] := by
  decide +kernel

end Remote8008.Guarantees.SlotGate
