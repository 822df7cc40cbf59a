import Remote8008.Lib.OneSlot
import Remote8008.Guarantees.MainPhases
import Remote8008.Guarantees.RequestServer

/-!
# One client and the board's request server

The client of host/b8008net/console.py over host/b8008net/eb_server.py:78-115: a write is
sent only with nothing outstanding and is followed by a read, which is attempted under
a fresh identifier until the reply to the latest attempt arrives. Requests travel in
order and may be lost; any reply the board ever produced may arrive at any time, any
number of times. The board is the firmware of firmware/udp.c and firmware/eb_serve.c in
its serve phase: polls, serves, announcements, and the pieces of `udp_arp_refresh`
(cache updates, ARP requests and polls), in any order.
-/

namespace Remote8008.System.ClientServer
open Lib.OneSlot Lib.Machine Source.Firmware Source.UdpTransmit Source.EbServe Source.UdpReceive
open Source.Eb8008 Source.EtherboneWire Source.Main Guarantees.FirmwareEffects
open Guarantees.RequestServer Guarantees.MainPhases

/-- What a request of each kind carries: write sections only, or one read section
under the identifier. -/
def Speaks : Kind UInt32 → List UInt8 → Prop
  | .write, data => ∃ h rs, h.flags &&& ebPf = 0 ∧ data = encode h rs ∧ ∀ r ∈ rs, r.reads = none
  | .read id, data => ∃ h flags byteEnable s, h.flags &&& ebPf = 0 ∧
      data = encode h [⟨flags, byteEnable, none, some s⟩] ∧ s.head = id

/-- A request datagram as the frame that brings it to the board at `ip`. -/
structure Packet (ip : UInt32) where
  frame : RxFrame
  kind : Kind UInt32
  shape : WellFormedUdp frame
  addressed : AddressedTo ip (ipDst frame)
  short : (datagram frame).data.length ≤ ebBufLen
  speaks : Speaks kind (datagram frame).data

variable {σ : Type} {ip : UInt32}

structure Sys (σ : Type) (ip : UInt32) where
  board : World σ
  client : Client UInt32
  flight : List (Packet ip)
  arrived : List (Packet ip)
  used : List UInt32

def Sys.start (board : World σ) : Sys σ ip := ⟨board, .ready, [], [], []⟩

inductive Event (ip : UInt32) where
  | write (p : Packet ip)
  | attempt (p : Packet ip)
  | lose
  | deliver
  | noise (f : RxFrame)
  | serve
  | announce
  | arpRequest (gateway : UInt32)
  | arpCache (gateway : UInt32) (mac : Mac)
  | receive (index : Nat)

/-- One poll that finds a frame. -/
def poll (w : World σ) (f : RxFrame) : World σ := udpService { w with inbox := some f :: w.inbox }

def replies (trace : List Obs) : List (List UInt8) :=
  trace.filterMap fun | .handle _ _ reply => some reply | _ => none

/-- The base address of the last record, which the client compares with its counter. -/
def replyId (reply : List UInt8) : Option UInt32 := do
  let (_, records) ← decode reply
  let record ← records.getLast?
  let writes ← record.writes
  return writes.head

/-- An event that is not enabled leaves the system alone. -/
def step (bus : Bus σ) (s : Sys σ ip) : Event ip → Sys σ ip
  | .write p =>
    match s.client, p.kind with
    | .ready, .write => { s with client := .wrote, flight := s.flight ++ [p] }
    | _, _ => s
  | .attempt p =>
    match p.kind with
    | .read id =>
      if id ∈ s.used then s
      else { s with client := .reading id, flight := s.flight ++ [p], used := id :: s.used }
    | .write => s
  | .lose => { s with flight := s.flight.tail }
  | .deliver =>
    match s.flight with
    | p :: rest =>
      { s with board := poll s.board p.frame, flight := rest, arrived := s.arrived ++ [p] }
    | [] => s
  | .noise f => { s with board := poll s.board f }
  | .serve => { s with board := ebServePending bus s.board }
  | .announce => { s with board := udpAnnounceArp s.board }
  | .arpRequest gateway =>
    { s with board := sendArp s.board Mac.broadcast arpOpcodeRequest Mac.zero gateway }
  | .arpCache gateway mac =>
    { s with board := { s.board with cachedIp := gateway, cachedMac := mac } }
  | .receive index =>
    match s.client, (replies s.board.trace)[index]? with
    | .reading id, some reply => if replyId reply = some id then { s with client := .ready } else s
    | _, _ => s

/-! ## The board's moves are those of main -/

inductive BoardMove where
  | poll
  | serve
  | announce
  | arpRequest (target : UInt32)
  | arpCache (target : UInt32) (mac : Mac)

def boardStep (bus : Bus σ) (w : World σ) : BoardMove → World σ
  | .poll => udpService w
  | .serve => ebServePending bus w
  | .announce => udpAnnounceArp w
  | .arpRequest target => sendArp w Mac.broadcast arpOpcodeRequest Mac.zero target
  | .arpCache target mac => { w with cachedIp := target, cachedMac := mac }

/-- A poll of main is a poll of the system that brings the next frame of the inbox. -/
theorem udpService_eq_poll {w : World σ} {f : RxFrame} {rest : List (Option RxFrame)}
    (next : w.inbox = some f :: rest) : udpService w = poll { w with inbox := rest } f := by
  simp only [poll, udpService, next]

theorem moves_rule (bus : Bus σ) (ip : UInt32) (w : World σ) :
    ServeInvariant bus ip fun v => ∃ moves, v = run (boardStep bus) w moves := by
  have extend : ∀ v move, (∃ moves, v = run (boardStep bus) w moves) →
      ∃ moves, boardStep bus v move = run (boardStep bus) w moves := by
    rintro v move ⟨moves, rfl⟩
    exact ⟨moves ++ [move], by rw [run_concat]⟩
  exact ⟨fun v _ => extend v .poll, fun v _ => extend v .serve, fun v _ => extend v .announce,
    fun v target _ => extend v (.arpRequest target),
    fun v target mac => extend v (.arpCache target mac)⟩

/-- The serve phase of main is nothing but such moves. -/
theorem serveTicks_moves (bus : Bus σ) {w : World σ} (serving : Serving ip w) (ticks : Nat) :
    ∃ moves, serveTicks bus ip ticks w = run (boardStep bus) w moves :=
  (serveTicks_preserves (moves_rule bus ip w) ticks ⟨serving, [], rfl⟩).2

end Remote8008.System.ClientServer
