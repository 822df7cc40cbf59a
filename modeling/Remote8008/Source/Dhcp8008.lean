import Remote8008.Source.Firmware

/-!
# DHCP messages

Source: firmware/dhcp8008.c:44-233. The builders return the message they leave at the
start of the caller's buffer; the return value of the C function is its length. The
parser works on the `len` bytes it is given, and a load beyond them is a fault of the
model.
-/

namespace Remote8008.Source.Dhcp8008
open Lib.BigEndian Firmware Eb8008

def dhcpMagicCookie : UInt32 := 0x63825363
def dhcpOpBootrequest : UInt8 := 1
def dhcpOpBootreply : UInt8 := 2
def dhcpHtypeEthernet : UInt8 := 1
def dhcpHlenEthernet : UInt8 := 6

def dhcpMsgDiscover : UInt8 := 1
def dhcpMsgOffer : UInt8 := 2
def dhcpMsgRequest : UInt8 := 3
def dhcpMsgAck : UInt8 := 5

def dhcpOptPad : UInt8 := 0
def dhcpOptHostname : UInt8 := 12
def dhcpOptRequestedIp : UInt8 := 50
def dhcpOptLeaseTime : UInt8 := 51
def dhcpOptMsgType : UInt8 := 53
def dhcpOptServerId : UInt8 := 54
def dhcpOptParamReqList : UInt8 := 55
def dhcpOptClientId : UInt8 := 61
def dhcpOptEnd : UInt8 := 255

def dhcpOptionsOffset : Nat := 240
def dhcpMinPacketLen : Nat := 300

/-- `"b8008"`. -/
def dhcpHostname : List UInt8 := [0x62, 0x38, 0x30, 0x30, 0x38]

/-! ## Builders -/

/-- The fixed header: `ciaddr` to `giaddr` are zero, `chaddr` is padded to 16 bytes,
`sname` and `file` are empty. -/
def buildHeader (chaddr : Mac) (xid : UInt32) : List UInt8 :=
  [dhcpOpBootrequest, dhcpHtypeEthernet, dhcpHlenEthernet, 0] ++ be32 xid ++ be16 0 ++
    be16 0x8000 ++ List.replicate 16 0 ++ chaddr.toList ++ List.replicate 10 0 ++
    List.replicate 64 0 ++ List.replicate 128 0 ++ be32 dhcpMagicCookie

def putOption (code : UInt8) (data : List UInt8) : List UInt8 :=
  [code, UInt8.ofNat data.length] ++ data

def buildCommonOptions (chaddr : Mac) (msgType : UInt8) : List UInt8 :=
  putOption dhcpOptMsgType [msgType] ++ putOption dhcpOptParamReqList [1, 3, 6] ++
    putOption dhcpOptHostname dhcpHostname ++
    putOption dhcpOptClientId (dhcpHtypeEthernet :: chaddr.toList)

def finishOptions (message : List UInt8) : List UInt8 :=
  let message := message ++ [dhcpOptEnd]
  message ++ List.replicate (dhcpMinPacketLen - message.length) dhcpOptPad

def dhcpBuildDiscover (chaddr : Mac) (xid : UInt32) : List UInt8 :=
  finishOptions (buildHeader chaddr xid ++ buildCommonOptions chaddr dhcpMsgDiscover)

def dhcpBuildRequest (chaddr : Mac) (xid requestedIp serverId : UInt32) : List UInt8 :=
  finishOptions (buildHeader chaddr xid ++ buildCommonOptions chaddr dhcpMsgRequest ++
    putOption dhcpOptRequestedIp (be32 requestedIp) ++ putOption dhcpOptServerId (be32 serverId))

/-! ## Parser -/

/-- `msg_type`, `got_server` and `got_lease`; no message type is the `-1` of the source. -/
structure Options where
  msgType : Option UInt8
  server : UInt32
  lease : UInt32
  deriving DecidableEq, Repr

/-- What the parsers write through their output pointers. -/
structure Reply where
  ip : UInt32
  server : UInt32
  leaseSecs : UInt32
  deriving DecidableEq, Repr

/-- The output arguments of a parser: what each points to, or `NULL`. -/
structure Outputs where
  ip : Option UInt32
  server : Option UInt32
  leaseSecs : Option UInt32
  deriving DecidableEq, Repr

def Outputs.write (out : Outputs) (reply : Reply) : Outputs where
  ip := out.ip.map fun _ => reply.ip
  server := out.server.map fun _ => reply.server
  leaseSecs := out.leaseSecs.map fun _ => reply.leaseSecs

section
variable (buf : List UInt8)

/-- The `switch (code)`, with the value of the option at `off`. -/
def readOption (code : UInt8) (olen off : Nat) (seen : Options) : Except Fault Options :=
  if code = dhcpOptMsgType then
    if olen ≥ 1 then do return { seen with msgType := some (← byteAt buf off) } else .ok seen
  else if code = dhcpOptServerId then
    if olen ≥ 4 then do return { seen with server := ← getBe32 buf off } else .ok seen
  else if code = dhcpOptLeaseTime then
    if olen ≥ 4 then do return { seen with lease := ← getBe32 buf off } else .ok seen
  else .ok seen

/-- `while (off < len)`. Every round consumes a byte, so a fuel above the length is
never used up. -/
def optionLoop : Nat → Nat → Options → Except Fault Options
  | 0, _, _ => .error .outOfFuel
  | fuel + 1, off, seen =>
    if off < buf.length then do
      let code ← byteAt buf off
      if code = dhcpOptEnd then return seen
      else if code = dhcpOptPad then optionLoop fuel (off + 1) seen
      else if off + 1 ≥ buf.length then return seen
      else do
        let olen ← byteAt buf (off + 1)
        if off + 2 + olen.toNat > buf.length then return seen
        else do
          let seen ← readOption buf code olen.toNat (off + 2) seen
          optionLoop fuel (off + 2 + olen.toNat) seen
    else .ok seen

def parseReply (xid : UInt32) (wantMsgType : UInt8) : Except Fault (Option Reply) :=
  if buf.length < dhcpOptionsOffset then .ok none
  else do
    let op ← byteAt buf 0
    if op ≠ dhcpOpBootreply then return none
    else do
      let gotXid ← getBe32 buf 4
      if gotXid ≠ xid then return none
      else do
        let cookie ← getBe32 buf 236
        if cookie ≠ dhcpMagicCookie then return none
        else do
          let yiaddr ← getBe32 buf 16
          let seen ← optionLoop buf (buf.length + 1) dhcpOptionsOffset ⟨none, 0, 0⟩
          if seen.msgType ≠ some wantMsgType then return none
          else return some ⟨yiaddr, seen.server, seen.lease⟩

/-- The return value of `parse_reply`, with what it leaves in the output arguments. -/
def parseReplyInto (xid : UInt32) (wantMsgType : UInt8) (out : Outputs) :
    Except Fault (Nat × Outputs) := do
  match ← parseReply buf xid wantMsgType with
  | none => return (0, out)
  | some reply => return (1, out.write reply)

def dhcpParseOffer (xid : UInt32) : Except Fault (Option Reply) := parseReply buf xid dhcpMsgOffer

/-- The caller asks for no server identifier. -/
def dhcpParseAck (xid : UInt32) : Except Fault (Option Reply) := parseReply buf xid dhcpMsgAck

/-- `dhcp_parse_offer` with its output arguments. -/
def dhcpParseOfferInto (xid : UInt32) (out : Outputs) : Except Fault (Nat × Outputs) :=
  parseReplyInto buf xid dhcpMsgOffer out

/-- `dhcp_parse_ack` with its output arguments; it passes `NULL` for the server. -/
def dhcpParseAckInto (xid : UInt32) (ip leaseSecs : Option UInt32) :
    Except Fault (Nat × Outputs) :=
  parseReplyInto buf xid dhcpMsgAck ⟨ip, none, leaseSecs⟩

end

end Remote8008.Source.Dhcp8008
