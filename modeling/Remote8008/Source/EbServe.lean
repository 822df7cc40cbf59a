import Remote8008.Source.UdpTransmit

/-!
# The one-slot request server

Source: firmware/eb_serve.c:22-75. The callback stashes one request; serving runs the
Etherbone handler on it and unicasts the reply to the address captured with it.
-/

namespace Remote8008.Source.EbServe
open Lib.Memory Firmware UdpTransmit Eb8008

def ebBufLen : Nat := 1500

variable {σ : Type}

/-- The length guard comes after the magic test, which a datagram of fewer than two
bytes passes. -/
def ebRxCallback (w : World σ) (d : Datagram) : World σ :=
  if w.ebPending then w
  else if d.data.length ≥ 2 ∧ (d.data[0]? ≠ some ebMagic0 ∨ d.data[1]? ≠ some ebMagic1) then w
  else if d.data.length > ebBufLen then w
  else
    let r : Request := ⟨w.lastSrcMac, d.srcIp, d.srcPort, d.dstPort, d.data⟩
    { w with ebStash := r, ebPending := true, trace := w.trace ++ [.accept r] }

/-- `udp_set_peer`, the copy into the transmit slot, and `udp_send` with the ports of
the request swapped. -/
def sendReply (w : World σ) (r : Request) (reply : List UInt8) : World σ :=
  let w := udpSetPeer w r.srcIp r.srcMac
  let w := w.setTxbuffer (store w.txbuffer payloadOffset reply)
  (udpSend w r.dstPort r.srcPort reply.length).2

def ebServePending (bus : Bus σ) (w : World σ) : World σ :=
  if w.ebPending then
    match eb8008Handle bus w.ebStash.data w.bus with
    | .error fault => w.log (.fault fault)
    | .ok x =>
      let w := { w with
        bus := x.bus
        trace := w.trace ++ [.handle w.ebStash.data x.accesses x.reply] }
      let w := if x.respLen ≠ 0 then sendReply w w.ebStash x.reply else w
      { w with ebPending := false }
  else w

end Remote8008.Source.EbServe
