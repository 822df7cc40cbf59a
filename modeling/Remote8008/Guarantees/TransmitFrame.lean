import Remote8008.Guarantees.FirmwareEffects

/-!
# Frames on the wire

firmware/udp.c:64-155. The fields of a frame handed to the MAC, as they are read back from
its bytes.
-/

namespace Remote8008.Guarantees.TransmitFrame
open Lib.BigEndian Source.Firmware Source.UdpTransmit

/-- `count` bytes of a frame from offset `first`. -/
def field (frame : List UInt8) (first count : Nat) : List UInt8 := (frame.drop first).take count

/-- A UDP datagram in an IPv4 Ethernet frame, field by field. -/
structure CarriesUdp (frame : List UInt8) (destmac srcmac : Mac) (srcIp dstIp : UInt32)
    (srcPort dstPort : UInt16) (payload : List UInt8) : Prop where
  destmac : field frame 0 6 = destmac.toList
  srcmac : field frame 6 6 = srcmac.toList
  ethertype : field frame 12 2 = be16 ethertypeIp
  proto : field frame 23 1 = [ipProtoUdp]
  srcIp : field frame 26 4 = be32 srcIp
  dstIp : field frame 30 4 = be32 dstIp
  srcPort : field frame 34 2 = be16 srcPort
  dstPort : field frame 36 2 = be16 dstPort
  udpLength : field frame 38 2 = be16 (UInt16.ofNat (payload.length + 8))
  payload : field frame 42 payload.length = payload

/-! ## ARP frames -/

/-- The fields of an ARP frame that say who speaks. -/
structure CarriesArp (frame : List UInt8) (opcode : UInt16) (senderIp : UInt32) : Prop where
  ethertype : field frame 12 2 = be16 ethertypeArp
  opcode : field frame 20 2 = be16 opcode
  senderIp : field frame 28 4 = be32 senderIp

instance (frame : List UInt8) (opcode : UInt16) (senderIp : UInt32) :
    Decidable (CarriesArp frame opcode senderIp) :=
  decidable_of_iff (field frame 12 2 = be16 ethertypeArp ∧ field frame 20 2 = be16 opcode ∧
      field frame 28 4 = be32 senderIp)
    ⟨fun ⟨a, b, c⟩ => ⟨a, b, c⟩, fun ⟨a, b, c⟩ => ⟨a, b, c⟩⟩

/-! ## What has been transmitted -/

def transmitted (trace : List Obs) : List (List UInt8) :=
  trace.filterMap fun o => match o with | .transmit bytes => some bytes | _ => none

@[simp] theorem transmitted_nil : transmitted [] = [] := rfl

@[simp] theorem transmitted_append (first second : List Obs) :
    transmitted (first ++ second) = transmitted first ++ transmitted second :=
  List.filterMap_append ..

@[simp] theorem transmitted_transmit (bytes : List UInt8) (rest : List Obs) :
    transmitted (.transmit bytes :: rest) = bytes :: transmitted rest := rfl

end Remote8008.Guarantees.TransmitFrame
