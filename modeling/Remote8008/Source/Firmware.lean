import Remote8008.Lib.Memory
import Remote8008.Source.Eb8008

/-!
# State of the board firmware

The static variables of firmware/udp.c, firmware/eb_serve.c and firmware/main.c that
steer behaviour, as one record. The counters of `process_frame` and the variables of
`send_ping`, which nothing calls, are in `UdpPing`. Those of eb_serve.c are left out: they
count observations of the trace (`eb_cb_any` calls of `eb_rx_callback`, `eb_cb_port`
requests stashed, `eb_served` replies).

The Ethernet MAC is the boundary. A frame it hands over is a length and a 2048-byte
slot, of which only the first bytes belong to the frame; `inbox` lists what the
successive polls of `udp_service` find. A frame it is given leaves as the first
`txlen` bytes of the transmit slot. The wait for a free transmitter is assumed to
end. `trace` records what happens at the seams of the program, oldest first.
-/

namespace Remote8008.Source.Firmware
open Lib.Memory Eb8008

abbrev Mac := Vector UInt8 6

def Mac.zero : Mac := Vector.replicate 6 0
def Mac.broadcast : Mac := Vector.replicate 6 0xff

def loadMac (m : Mem) (start : Nat) : Mac :=
  #v[m start, m (start + 1), m (start + 2), m (start + 3), m (start + 4), m (start + 5)]

def storeMac (m : Mem) (start : Nat) (mac : Mac) : Mem := store m start mac.toList

/-- `rxlen` and the receive slot. -/
structure RxFrame where
  len : Nat
  raw : Mem

/-- The two functions `udp_set_callback` is ever given. -/
inductive Callback where
  | dhcp | eb
  deriving DecidableEq, Repr

/-- Arguments of a `udp_callback`. -/
structure Datagram where
  srcIp : UInt32
  srcPort : UInt16
  dstPort : UInt16
  data : List UInt8
  deriving DecidableEq, Repr

/-- The `eb_src_*`, `eb_dst_port` and `eb_req` variables. -/
structure Request where
  srcMac : Mac
  srcIp : UInt32
  srcPort : UInt16
  dstPort : UInt16
  data : List UInt8
  deriving DecidableEq, Repr

/-- The part of main's loop that is running. -/
inductive Phase where
  | acquiring
  | serving (ip : UInt32)
  deriving DecidableEq, Repr

inductive Obs where
  /-- `main` enters a phase. -/
  | phase (p : Phase)
  /-- `udp_service` takes a frame from the MAC. -/
  | frame (f : RxFrame)
  /-- `process_udp` calls a callback. -/
  | callback (target : Callback) (d : Datagram)
  /-- `eb_rx_callback` stashes a request. -/
  | accept (r : Request)
  /-- `eb8008_handle` runs on a request. -/
  | handle (data : List UInt8) (accesses : List Access) (reply : List UInt8)
  /-- `eb8008_handle` leaves its buffers. -/
  | fault (f : Fault)
  /-- `send_packet` starts the transmitter. -/
  | transmit (bytes : List UInt8)

structure World (σ : Type) where
  /-- What `eb8008_bus_read` and `eb8008_bus_write` reach. The firmware's own memory is
  not part of it. -/
  bus : σ
  inbox : List (Option RxFrame)
  myMac : Mac
  myIp : UInt32
  cachedMac : Mac
  cachedIp : UInt32
  /-- `udp_last_src_mac`. -/
  lastSrcMac : Mac
  rxCallback : Option Callback
  bxCallback : Option Callback
  txSlots : Nat → Mem
  txslot : Nat
  ebPending : Bool
  ebStash : Request
  /-- `rx_got`, `rx_msgbuf` and `rx_msglen`. -/
  rxGot : Bool
  rxMsgbuf : Mem
  rxMsglen : Nat
  /-- The static of `next_xid`. -/
  xid : UInt32
  trace : List Obs

variable {σ : Type}

namespace World

def log (w : World σ) (o : Obs) : World σ := { w with trace := w.trace ++ [o] }

def txbuffer (w : World σ) : Mem := w.txSlots w.txslot

def setTxbuffer (w : World σ) (m : Mem) : World σ :=
  { w with txSlots := fun slot => if slot = w.txslot then m else w.txSlots slot }

end World

end Remote8008.Source.Firmware
