import Remote8008.Source.Eb8008
import Remote8008.Source.EtherboneWire

/-!
# Probing for the board

Source: host/b8008net/discovery.py:26-53,88-205 and host/b8008net/eb_server.py:22-31,54-76.
A window is given by the datagrams its socket receives before it closes, each with its
source, and `accepts` says for which addresses `sendto` does not raise. Left out are the
clock, sockets that raise while they listen, and the closing of a socket of one's own.

The packet codec of LiteX is a parameter, as in `EbServer`, and is assumed to behave only on
packets of four-byte addresses and words; where it raises, `decode` is `none`.
-/

namespace Remote8008.Source.Probe
open Eb8008 EtherboneWire

/-- `EtherbonePacket` as the probes use it: a packet without records and the probe flag, and
the magic and the probe-reply flag of a decoded one. -/
structure PacketCodec where
  probe : List UInt8
  decode : List UInt8 → Option (UInt16 × Bool)
  flagged : ∃ h, h.sizes = wordSizes ∧ h.flags &&& ebPf ≠ 0 ∧ h.flags &&& ebPr = 0 ∧
    probe = encode h []
  /-- The flags are those of the header. -/
  header : ∀ h rest packet, h.sizes = wordSizes → decode (encodeHeader h ++ rest) = some packet →
    packet = (0x4e6f, decide (h.flags &&& ebPr ≠ 0))
  /-- A header with four bytes of padding decodes. -/
  padded : ∀ h, h.sizes = wordSizes → decode (encode h [⟨0, 0, none, none⟩]) ≠ none

/-! ## Discovery -/

def etherboneMagic : UInt16 := 0x4e6f
def limited : UInt32 := 0xffffffff
/-- `local_ipv4_and_netmask` takes every network for a /24. -/
def netmask : UInt32 := 0xffffff00

/-- `_is_probe_reply`. -/
def isProbeReply (codec : PacketCodec) (data : List UInt8) : Bool :=
  match codec.decode data with
  | some (magic, pr) => magic == etherboneMagic && pr
  | none => false

/-- The loop of `probe_broadcast` and `probe_sweep`. -/
def listenFor (codec : PacketCodec) : List (List UInt8 × UInt32) → Option UInt32
  | [] => none
  | (data, source) :: rest => if isProbeReply codec data then some source else listenFor codec rest

/-- `ip | (~netmask & 0xFFFFFFFF)`. -/
def directed (ip : UInt32) : UInt32 := ip ||| ~~~netmask

/-- `here` is the address of this machine, if it is known. -/
def broadcastTargets (here : Option UInt32) : List UInt32 :=
  (here.map directed).toList ++ [limited]

/-- The targets a probe left for, and the address found. -/
def probeBroadcast (codec : PacketCodec) (here : Option UInt32) (accepts : UInt32 → Bool)
    (heard : List (List UInt8 × UInt32)) : List UInt32 × Option UInt32 :=
  let sent := (broadcastTargets here).filter accepts
  if sent = [] then (sent, none) else (sent, listenFor codec heard)

/-- `subnet_candidates`. -/
def subnetCandidates (ip mask : UInt32) : List UInt32 :=
  let network := ip &&& mask
  let broadcast := network ||| ~~~mask
  ((List.range' (network.toNat + 1) (broadcast.toNat - (network.toNat + 1))).map
    UInt32.ofNat).filter (· ≠ ip)

/-- Other than `probe_broadcast` it listens even if no probe left. -/
def probeSweep (codec : PacketCodec) (candidates : List UInt32) (accepts : UInt32 → Bool)
    (heard : List (List UInt8 × UInt32)) : List UInt32 × Option UInt32 :=
  (candidates.filter accepts, listenFor codec heard)

/-! ## The bridge -/

/-- `broadcast_addr`: where the bridge sends every request. -/
def broadcastAddr (here : Option UInt32) : UInt32 := (here.map directed).getD limited

/-- `request.bytes += bytes(4)`. -/
def bridgePacket (codec : PacketCodec) : List UInt8 := codec.probe ++ [0, 0, 0, 0]

/-- The inner loop of `CommUDPBroadcast.probe`, which does not look at the magic. -/
def repliesWithin (codec : PacketCodec) (window : List (List UInt8)) : Bool :=
  window.any fun data => (codec.decode data).any Prod.snd

/-- `for _ in range(3)`: the requests sent, and whether the probe returns or raises. A window
lasts until `recvfrom` times out. -/
def bridgeProbe (codec : PacketCodec) : Nat → List (List (List UInt8)) → Nat × Bool
  | 0, _ => (0, false)
  | left + 1, windows =>
    if repliesWithin codec (windows.headD []) then (1, true)
    else ((bridgeProbe codec left windows.tail).1 + 1, (bridgeProbe codec left windows.tail).2)

end Remote8008.Source.Probe
