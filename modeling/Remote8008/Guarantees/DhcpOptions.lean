import Mathlib.Data.List.Induction
import Remote8008.Guarantees.EtherbonePacket
import Remote8008.Source.Dhcp8008

/-!
# The DHCP reply parser

firmware/dhcp8008.c:159-221. A reply is a BOOTP header followed by options: padding and
code-length-value triples up to an end marker, cut off anywhere. Every byte string after
the header is such a sequence, so what is shown of cut sequences covers every buffer: the
scanner stays inside it, sees the options that are complete, and lets the last one of each
kind decide.
-/

namespace Remote8008.Guarantees.DhcpOptions
open Lib.BigEndian Source.Eb8008 Source.Dhcp8008 EtherbonePacket

/-! ## Option sequences -/

structure TlvOption where
  code : UInt8
  value : List UInt8
  notPad : code ≠ dhcpOptPad
  notEnd : code ≠ dhcpOptEnd
  short : value.length ≤ 255

theorem TlvOption.olen_toNat (o : TlvOption) :
    (UInt8.ofNat o.value.length).toNat = o.value.length :=
  UInt8.toNat_ofNat_of_lt' (Nat.lt_succ_of_le o.short)

inductive Item where
  | pad
  | option (o : TlvOption)

def encodeItem : Item → List UInt8
  | .pad => [dhcpOptPad]
  | .option o => putOption o.code o.value

def Item.options : Item → List TlvOption
  | .pad => []
  | .option o => [o]

/-- Items, the end marker, and whatever follows it. -/
def encodeItems (items : List Item) (trailing : List UInt8) : List UInt8 :=
  items.flatMap encodeItem ++ dhcpOptEnd :: trailing

/-- The options that lie within the first `n` bytes. -/
def complete : Nat → List Item → List TlvOption
  | _, [] => []
  | n, item :: rest =>
    if (encodeItem item).length ≤ n then
      item.options ++ complete (n - (encodeItem item).length) rest
    else []

theorem encodeItems_cons (item : Item) (rest : List Item) (trailing : List UInt8) :
    encodeItems (item :: rest) trailing = encodeItem item ++ encodeItems rest trailing := by
  simp [encodeItems]

theorem putOption_length (code : UInt8) (data : List UInt8) :
    (putOption code data).length = 2 + data.length := by
  simp [putOption]
  omega

theorem putOption_of_length (code : UInt8) {olen : UInt8} {data : List UInt8}
    (size : data.length = olen.toNat) : putOption code data = code :: olen :: data := by
  rw [putOption, size, UInt8.ofNat_toNat]
  rfl

theorem encodeItem_pos (item : Item) : 0 < (encodeItem item).length := by
  cases item with
  | pad => exact Nat.one_pos
  | option o =>
    rw [encodeItem, putOption_length]
    omega

/-! ## Which options count -/

/-- The last option with a code and a minimal length. -/
def lastOption (code : UInt8) (minLength : Nat) (options : List TlvOption) : Option TlvOption :=
  (options.filter fun o => decide (o.code = code ∧ minLength ≤ o.value.length)).getLast?

def messageType (options : List TlvOption) : Option UInt8 :=
  (lastOption dhcpOptMsgType 1 options).bind fun o => o.value.head?

/-- The first four bytes of the last option with a code, or 0. -/
def addressOption (code : UInt8) (options : List TlvOption) : UInt32 :=
  ((lastOption code 4 options).map fun o => ofBe32 (o.value.take 4)).getD 0

/-- What one option changes. -/
def note (seen : Options) (o : TlvOption) : Options :=
  if o.code = dhcpOptMsgType then
    if 1 ≤ o.value.length then { seen with msgType := o.value.head? } else seen
  else if o.code = dhcpOptServerId then
    if 4 ≤ o.value.length then { seen with server := ofBe32 (o.value.take 4) } else seen
  else if o.code = dhcpOptLeaseTime then
    if 4 ≤ o.value.length then { seen with lease := ofBe32 (o.value.take 4) } else seen
  else seen

/-- A field that some inputs overwrite holds the value of the last of them. -/
theorem foldl_overwrites {α β γ : Type*} (field : β → γ) (step : β → α → β) (writes : α → Bool)
    (value : α → γ) (law : ∀ b a, field (step b a) = if writes a then value a else field b)
    (inputs : List α) (start : β) :
    field (inputs.foldl step start) =
      ((inputs.filter writes).getLast?.map value).getD (field start) := by
  induction inputs using List.reverseRecOn with
  | nil => rfl
  | append_singleton inputs a ih =>
    rw [List.foldl_append, List.filter_append, List.foldl_cons, List.foldl_nil, law]
    cases h : writes a with
    | true => simp [h]
    | false => simpa [h] using ih

theorem note_msgType (seen : Options) (o : TlvOption) :
    (note seen o).msgType =
      if decide (o.code = dhcpOptMsgType ∧ 1 ≤ o.value.length) then o.value.head?
      else seen.msgType := by
  by_cases type : o.code = dhcpOptMsgType
  · rw [note, if_pos type]
    by_cases long : 1 ≤ o.value.length <;> simp [type, long]
  · rw [note, if_neg type]
    simp only [type, false_and, decide_false, Bool.false_eq_true, if_false]
    split_ifs <;> rfl

theorem note_server (seen : Options) (o : TlvOption) :
    (note seen o).server =
      if decide (o.code = dhcpOptServerId ∧ 4 ≤ o.value.length) then ofBe32 (o.value.take 4)
      else seen.server := by
  by_cases server : o.code = dhcpOptServerId
  · have other : o.code ≠ dhcpOptMsgType := by
      rw [server]
      decide
    rw [note, if_neg other, if_pos server]
    by_cases long : 4 ≤ o.value.length <;> simp [server, long]
  · rw [note, if_neg server]
    simp only [server, false_and, decide_false, Bool.false_eq_true, if_false]
    split_ifs <;> rfl

theorem note_lease (seen : Options) (o : TlvOption) :
    (note seen o).lease =
      if decide (o.code = dhcpOptLeaseTime ∧ 4 ≤ o.value.length) then ofBe32 (o.value.take 4)
      else seen.lease := by
  by_cases lease : o.code = dhcpOptLeaseTime
  · have others : o.code ≠ dhcpOptMsgType ∧ o.code ≠ dhcpOptServerId := by
      rw [lease]
      decide
    rw [note, if_neg others.1, if_neg others.2, if_pos lease]
    by_cases long : 4 ≤ o.value.length <;> simp [lease, long]
  · rw [note, if_neg lease]
    simp only [lease, false_and, decide_false, Bool.false_eq_true, if_false]
    split_ifs <;> rfl

theorem foldl_note (options : List TlvOption) :
    options.foldl note ⟨none, 0, 0⟩ = ⟨messageType options,
      addressOption dhcpOptServerId options, addressOption dhcpOptLeaseTime options⟩ := by
  have type := foldl_overwrites Options.msgType note _ _ note_msgType options ⟨none, 0, 0⟩
  have server := foldl_overwrites Options.server note _ _ note_server options ⟨none, 0, 0⟩
  have lease := foldl_overwrites Options.lease note _ _ note_lease options ⟨none, 0, 0⟩
  have bound : ∀ last : Option TlvOption,
      (last.map fun o => o.value.head?).getD none = last.bind fun o => o.value.head? := by
    intro last
    cases last <;> rfl
  rw [bound] at type
  generalize options.foldl note ⟨none, 0, 0⟩ = seen at type server lease
  obtain ⟨msgType, gotServer, gotLease⟩ := seen
  simp only at type server lease
  rw [type, server, lease]
  rfl

/-! ## The scanner -/

theorem of_drop_cons {buf rest : List UInt8} {off : Nat} {b : UInt8}
    (here : buf.drop off = b :: rest) :
    byteAt buf off = .ok b ∧ buf.drop (off + 1) = rest ∧ buf.length = off + 1 + rest.length := by
  have start : (b :: rest) <+: buf.drop off := ⟨[], by rw [List.append_nil, here]⟩
  obtain ⟨read, -⟩ := byteAt_of_prefix start
  have later := congrArg (List.drop 1) here
  have lengths := congrArg List.length here
  simp only [List.length_drop, List.length_cons] at lengths
  exact ⟨read, by simpa [List.drop_drop] using later, by omega⟩

theorem getBe32_of_value {buf value : List UInt8} {off : Nat} (here : value <+: buf.drop off)
    (long : 4 ≤ value.length) : getBe32 buf off = .ok (ofBe32 (value.take 4)) := by
  match value with
  | b0 :: b1 :: b2 :: b3 :: rest =>
    have word : be32 (ofBe32 [b0, b1, b2, b3]) = [b0, b1, b2, b3] := be32_ofBe32 _ rfl
    have start : (be32 (ofBe32 [b0, b1, b2, b3]) ++ rest) <+: buf.drop off := by
      rw [word]
      exact here
    obtain ⟨read, -⟩ := getBe32_of_prefix start
    exact read

theorem readOption_note {buf : List UInt8} {off : Nat} (o : TlvOption) (seen : Options)
    (here : o.value <+: buf.drop off) :
    readOption buf o.code o.value.length off seen = .ok (note seen o) := by
  unfold readOption note
  by_cases type : o.code = dhcpOptMsgType
  · rw [if_pos type, if_pos type]
    cases content : o.value with
    | nil => rfl
    | cons b rest =>
      rw [content] at here
      obtain ⟨read, -⟩ := byteAt_of_prefix here
      rw [read]
      rfl
  · rw [if_neg type, if_neg type]
    by_cases long : 4 ≤ o.value.length
    · rw [getBe32_of_value here long]
      simp only [ge_iff_le, if_pos long]
      split
      · rfl
      · split <;> rfl
    · simp only [ge_iff_le, if_neg long]
      split
      · rfl
      · split <;> rfl

section
variable {buf rest : List UInt8} {off : Nat} (fuel : Nat) (seen : Options)

theorem optionLoop_done (done : buf.length ≤ off) :
    optionLoop buf (fuel + 1) off seen = .ok seen := by
  rw [optionLoop, if_neg (Nat.not_lt.mpr done)]

theorem optionLoop_end (here : buf.drop off = dhcpOptEnd :: rest) :
    optionLoop buf (fuel + 1) off seen = .ok seen := by
  obtain ⟨read, -, length⟩ := of_drop_cons here
  rw [optionLoop, if_pos (by omega), read]
  rfl

theorem optionLoop_pad (here : buf.drop off = dhcpOptPad :: rest) :
    optionLoop buf (fuel + 1) off seen = optionLoop buf fuel (off + 1) seen := by
  obtain ⟨read, -, length⟩ := of_drop_cons here
  rw [optionLoop, if_pos (by omega), read]
  rfl

/-- A code that is not padding or the end, with what follows it. -/
theorem optionLoop_code {code : UInt8} (notPad : code ≠ dhcpOptPad) (notEnd : code ≠ dhcpOptEnd)
    (here : buf.drop off = code :: rest) :
    optionLoop buf (fuel + 1) off seen =
      if off + 1 ≥ buf.length then .ok seen
      else byteAt buf (off + 1) >>= fun olen =>
        if off + 2 + olen.toNat > buf.length then .ok seen
        else readOption buf code olen.toNat (off + 2) seen >>= fun noted =>
          optionLoop buf fuel (off + 2 + olen.toNat) noted := by
  obtain ⟨read, -, length⟩ := of_drop_cons here
  rw [optionLoop, if_pos (by omega), read]
  simp only [bind, Except.bind, if_neg notEnd, if_neg notPad]
  rfl

theorem optionLoop_cut_code {code : UInt8} (notPad : code ≠ dhcpOptPad)
    (notEnd : code ≠ dhcpOptEnd) (here : buf.drop off = [code]) :
    optionLoop buf (fuel + 1) off seen = .ok seen := by
  obtain ⟨-, -, length⟩ := of_drop_cons here
  rw [List.length_nil] at length
  rw [optionLoop_code fuel seen notPad notEnd here, if_pos (by omega)]

theorem optionLoop_cut_value {code olen : UInt8} (notPad : code ≠ dhcpOptPad)
    (notEnd : code ≠ dhcpOptEnd) (here : buf.drop off = code :: olen :: rest)
    (cut : rest.length < olen.toNat) : optionLoop buf (fuel + 1) off seen = .ok seen := by
  obtain ⟨-, next, length⟩ := of_drop_cons here
  obtain ⟨read, -, -⟩ := of_drop_cons next
  rw [List.length_cons] at length
  rw [optionLoop_code fuel seen notPad notEnd here, if_neg (by omega), read]
  exact if_pos (by omega)

/-- An option that is cut off before its end. -/
theorem optionLoop_cut {o : TlvOption} {n : Nat}
    (here : buf.drop off = (putOption o.code o.value ++ rest).take n)
    (cut : n < 2 + o.value.length) : optionLoop buf (fuel + 1) off seen = .ok seen := by
  match n with
  | 0 => exact optionLoop_done fuel seen (List.drop_eq_nil_iff.mp here)
  | 1 => exact optionLoop_cut_code fuel seen o.notPad o.notEnd here
  | n + 2 =>
    apply optionLoop_cut_value fuel seen o.notPad o.notEnd here
    rw [o.olen_toNat]
    exact Nat.lt_of_le_of_lt (List.length_take_le _ _) (by omega)

theorem optionLoop_option {o : TlvOption} (here : buf.drop off = putOption o.code o.value ++ rest) :
    optionLoop buf (fuel + 1) off seen =
      optionLoop buf fuel (off + (2 + o.value.length)) (note seen o) := by
  have split : buf.drop off = o.code :: UInt8.ofNat o.value.length :: (o.value ++ rest) := here
  obtain ⟨-, next, -⟩ := of_drop_cons split
  obtain ⟨read, value, length⟩ := of_drop_cons next
  rw [List.length_append] at length
  have content : o.value <+: buf.drop (off + 2) := ⟨rest, value.symm⟩
  rw [optionLoop_code fuel seen o.notPad o.notEnd split, if_neg (by omega), read]
  simp only [bind, Except.bind, o.olen_toNat]
  rw [if_neg (by omega), readOption_note o seen content, Nat.add_assoc]

end

/-- The scanner on a sequence that is cut after `n` bytes: every complete option is noted,
in order. -/
theorem optionLoop_items {buf : List UInt8} (items : List Item) (trailing : List UInt8)
    {n off fuel : Nat} (cut : buf.drop off = (encodeItems items trailing).take n)
    (enough : buf.length - off < fuel) (seen : Options) :
    optionLoop buf fuel off seen = .ok ((complete n items).foldl note seen) := by
  induction items generalizing n off fuel seen with
  | nil =>
    cases fuel with
    | zero => omega
    | succ fuel =>
      cases n with
      | zero =>
        have done : buf.length ≤ off := List.drop_eq_nil_iff.mp cut
        exact optionLoop_done fuel seen done
      | succ n => exact optionLoop_end fuel seen cut
  | cons item rest ih =>
    cases fuel with
    | zero => omega
    | succ fuel =>
      rw [encodeItems_cons] at cut
      by_cases whole : (encodeItem item).length ≤ n
      · rw [complete, if_pos whole, List.foldl_append]
        rw [List.take_append, List.take_of_length_le whole] at cut
        have rest' : buf.drop (off + (encodeItem item).length) =
            (encodeItems rest trailing).take (n - (encodeItem item).length) := by
          rw [← List.drop_drop, cut, List.drop_left]
        have positive := encodeItem_pos item
        have length := congrArg List.length cut
        rw [List.length_drop, List.length_append] at length
        have fewer : buf.length - (off + (encodeItem item).length) < fuel := by omega
        have later := ih rest' fewer
        cases item with
        | pad =>
          rw [optionLoop_pad fuel seen cut]
          exact later seen
        | option o =>
          have next : off + (encodeItem (.option o)).length = off + (2 + o.value.length) :=
            congrArg (off + ·) (putOption_length o.code o.value)
          rw [optionLoop_option fuel seen cut, ← next]
          exact later (note seen o)
      · rw [complete, if_neg whole]
        cases item with
        | pad =>
          have nothing : n = 0 := by simpa [encodeItem] using whole
          rw [nothing, List.take_zero] at cut
          exact optionLoop_done fuel seen (List.drop_eq_nil_iff.mp cut)
        | option o =>
          rw [encodeItem, putOption_length] at whole
          exact optionLoop_cut fuel seen cut (Nat.not_le.mp whole)

/-- Every byte string is a cut option sequence. -/
theorem exists_items (bytes : List UInt8) :
    ∃ items trailing, bytes <+: encodeItems items trailing := by
  -- the length drops by at least the code
  induction hlength : bytes.length using Nat.strong_induction_on generalizing bytes with
  | _ length ih =>
    cases bytes with
    | nil => exact ⟨[], [], List.nil_prefix⟩
    | cons code rest =>
      rw [List.length_cons] at hlength
      by_cases isEnd : code = dhcpOptEnd
      · exact ⟨[], rest, [], by rw [isEnd, List.append_nil]; rfl⟩
      by_cases isPad : code = dhcpOptPad
      · obtain ⟨items, trailing, later⟩ := ih rest.length (by omega) rest rfl
        refine ⟨.pad :: items, trailing, ?_⟩
        rw [encodeItems_cons, isPad]
        exact (List.prefix_append_right_inj [dhcpOptPad]).mpr later
      cases rest with
      | nil => exact ⟨[.option ⟨code, [], isPad, isEnd, by simp⟩], [], ⟨_, rfl⟩⟩
      | cons olen more =>
        have bound := olen.toNat_lt
        rw [List.length_cons] at hlength
        by_cases enough : olen.toNat ≤ more.length
        · obtain ⟨items, trailing, later⟩ :=
            ih (more.drop olen.toNat).length (by rw [List.length_drop]; omega) _ rfl
          have size : (more.take olen.toNat).length = olen.toNat := by simpa using enough
          refine ⟨.option ⟨code, more.take olen.toNat, isPad, isEnd, by omega⟩ :: items,
            trailing, ?_⟩
          have bytes : code :: olen :: more =
              putOption code (more.take olen.toNat) ++ more.drop olen.toNat := by
            rw [putOption_of_length code size]
            simp
          rw [encodeItems_cons, bytes]
          exact (List.prefix_append_right_inj _).mpr later
        · have size : (more ++ List.replicate (olen.toNat - more.length) 0).length =
              olen.toNat := by
            rw [List.length_append, List.length_replicate]
            omega
          refine ⟨[.option ⟨code, more ++ List.replicate (olen.toNat - more.length) 0, isPad,
            isEnd, by omega⟩], [], ?_⟩
          rw [encodeItems_cons, encodeItem, putOption_of_length code size]
          simp

theorem optionLoop_total (buf : List UInt8) (off : Nat) (seen : Options) :
    ∃ noted, optionLoop buf (buf.length + 1) off seen = .ok noted := by
  obtain ⟨items, trailing, start⟩ := exists_items (buf.drop off)
  exact ⟨_, optionLoop_items items trailing (List.prefix_iff_eq_take.mp start) (by omega) seen⟩

/-! ## The header -/

/-- The big-endian word at an offset. -/
def wordAt (buf : List UInt8) (off : Nat) : UInt32 := ofBe32 ((buf.drop off).take 4)

/-- The tests of the parser in front of the options. -/
structure HeaderFor (xid : UInt32) (buf : List UInt8) : Prop where
  long : dhcpOptionsOffset ≤ buf.length
  op : buf[0]? = some dhcpOpBootreply
  xid : wordAt buf 4 = xid
  cookie : wordAt buf 236 = dhcpMagicCookie

theorem getBe32_wordAt (buf : List UInt8) (off : Nat) (inside : off + 4 ≤ buf.length) :
    getBe32 buf off = .ok (wordAt buf off) :=
  getBe32_of_value List.prefix_rfl (by rw [List.length_drop]; omega)

/-- The parser on a buffer that holds a header. -/
theorem parseReply_long {buf : List UInt8} (long : dhcpOptionsOffset ≤ buf.length) {op : UInt8}
    (first : buf[0]? = some op) (xid : UInt32) (want : UInt8) {seen : Options}
    (options : optionLoop buf (buf.length + 1) dhcpOptionsOffset ⟨none, 0, 0⟩ = .ok seen) :
    parseReply buf xid want =
      if op ≠ dhcpOpBootreply then .ok none
      else if wordAt buf 4 ≠ xid then .ok none
      else if wordAt buf 236 ≠ dhcpMagicCookie then .ok none
      else if seen.msgType ≠ some want then .ok none
      else .ok (some ⟨wordAt buf 16, seen.server, seen.lease⟩) := by
  have size : dhcpOptionsOffset = 240 := rfl
  have readOp : byteAt buf 0 = .ok op := by rw [byteAt, first]
  have readXid := getBe32_wordAt buf 4 (by omega)
  have readCookie := getBe32_wordAt buf 236 (by omega)
  have readYiaddr := getBe32_wordAt buf 16 (by omega)
  rw [parseReply, if_neg (Nat.not_lt.mpr long), readOp, readXid, readCookie, readYiaddr, options]
  rfl

theorem exists_first {buf : List UInt8} (long : dhcpOptionsOffset ≤ buf.length) :
    ∃ op, buf[0]? = some op := by
  cases buf with
  | nil => cases long
  | cons op rest => exact ⟨op, rfl⟩

theorem parseReply_foreign {buf : List UInt8} {xid : UInt32} (foreign : ¬ HeaderFor xid buf)
    (want : UInt8) : parseReply buf xid want = .ok none := by
  by_cases long : dhcpOptionsOffset ≤ buf.length
  · obtain ⟨op, first⟩ := exists_first long
    obtain ⟨seen, options⟩ := optionLoop_total buf dhcpOptionsOffset ⟨none, 0, 0⟩
    rw [parseReply_long long first xid want options]
    refine ite_eq_left_iff.mpr fun reply => ite_eq_left_iff.mpr fun ours =>
      ite_eq_left_iff.mpr fun magic => ?_
    rw [not_not] at reply ours magic
    exact absurd ⟨long, reply ▸ first, ours, magic⟩ foreign
  · rw [parseReply, if_pos (Nat.not_le.mp long)]

theorem parseReply_header {buf : List UInt8} {xid : UInt32} (header : HeaderFor xid buf)
    (want : UInt8) {seen : Options}
    (options : optionLoop buf (buf.length + 1) dhcpOptionsOffset ⟨none, 0, 0⟩ = .ok seen) :
    parseReply buf xid want = .ok (if seen.msgType = some want then
      some ⟨wordAt buf 16, seen.server, seen.lease⟩ else none) := by
  rw [parseReply_long header.long header.op xid want options, if_neg (not_not.mpr rfl),
    if_neg (not_not.mpr header.xid), if_neg (not_not.mpr header.cookie)]
  by_cases wanted : seen.msgType = some want
  · rw [if_neg (not_not.mpr wanted), if_pos wanted]
  · rw [if_pos wanted, if_neg wanted]

/-! ## Replies -/

/-- A BOOTREPLY header: `htype` to `hops`, `secs` to `ciaddr`, and `siaddr` to `file` are
arbitrary bytes. -/
structure BootReply where
  hardware : List UInt8
  xid : UInt32
  client : List UInt8
  yiaddr : UInt32
  server : List UInt8
  hardwareLength : hardware.length = 3
  clientLength : client.length = 8
  serverLength : server.length = 216

def encodeReply (r : BootReply) : List UInt8 :=
  dhcpOpBootreply :: r.hardware ++ be32 r.xid ++ r.client ++ be32 r.yiaddr ++ r.server ++
    be32 dhcpMagicCookie

theorem encodeReply_length (r : BootReply) : (encodeReply r).length = dhcpOptionsOffset := by
  simp [encodeReply, r.hardwareLength, r.clientLength, r.serverLength, dhcpOptionsOffset]

theorem wordAt_append (before : List UInt8) {off : Nat} (v : UInt32) (after : List UInt8)
    (length : before.length = off) : wordAt (before ++ (be32 v ++ after)) off = v := by
  rw [wordAt, List.drop_left' length, List.take_left' (be32_length v), ofBe32_be32]

theorem encodeReply_header (r : BootReply) (body : List UInt8) :
    HeaderFor r.xid (encodeReply r ++ body) ∧ wordAt (encodeReply r ++ body) 16 = r.yiaddr := by
  have hardware := r.hardwareLength
  have client := r.clientLength
  have server := r.serverLength
  refine ⟨⟨?_, rfl, ?_, ?_⟩, ?_⟩
  · rw [List.length_append, encodeReply_length]
    exact Nat.le_add_right _ _
  · have split := wordAt_append (dhcpOpBootreply :: r.hardware) r.xid
      (r.client ++ be32 r.yiaddr ++ r.server ++ be32 dhcpMagicCookie ++ body)
      (show _ = 4 by simp [hardware])
    simpa [encodeReply] using split
  · have split := wordAt_append
      (dhcpOpBootreply :: r.hardware ++ be32 r.xid ++ r.client ++ be32 r.yiaddr ++ r.server)
      dhcpMagicCookie body (show _ = 236 by simp [hardware, client, server])
    simpa [encodeReply] using split
  · have split := wordAt_append (dhcpOpBootreply :: r.hardware ++ be32 r.xid ++ r.client) r.yiaddr
      (r.server ++ be32 dhcpMagicCookie ++ body) (show _ = 16 by simp [hardware, client])
    simpa [encodeReply] using split

theorem be32_wordAt {buf : List UInt8} {off : Nat} (inside : off + 4 ≤ buf.length) :
    be32 (wordAt buf off) = (buf.drop off).take 4 := by
  apply be32_ofBe32
  rw [List.length_take, List.length_drop]
  omega

/-- Every buffer with a header of the transaction is a reply followed by a cut option
sequence. -/
theorem exists_reply {buf : List UInt8} {xid : UInt32} (header : HeaderFor xid buf) :
    ∃ (r : BootReply) (items : List Item) (trailing : List UInt8) (n : Nat), r.xid = xid ∧
      buf = encodeReply r ++ (encodeItems items trailing).take n := by
  have long : 240 ≤ buf.length := header.long
  have slice : ∀ off n, off + n ≤ 240 → ((buf.drop off).take n).length = n := by
    intro off n inside
    rw [List.length_take, List.length_drop]
    omega
  let r : BootReply := ⟨(buf.drop 1).take 3, xid, (buf.drop 8).take 8, wordAt buf 16,
    (buf.drop 20).take 216, slice 1 3 (by omega), slice 8 8 (by omega), slice 20 216 (by omega)⟩
  have op : buf.take 1 = [dhcpOpBootreply] := by
    obtain ⟨first, rest, rfl⟩ :=
      List.exists_cons_of_length_pos (Nat.lt_of_lt_of_le (by decide) long)
    have same : some first = some dhcpOpBootreply := header.op
    rw [Option.some.inj same]
    rfl
  have front : buf.take 240 = encodeReply r := by
    have words : be32 xid = (buf.drop 4).take 4 ∧ be32 (wordAt buf 16) = (buf.drop 16).take 4 ∧
        be32 dhcpMagicCookie = (buf.drop 236).take 4 := by
      rw [← header.xid, ← header.cookie]
      exact ⟨be32_wordAt (by omega), be32_wordAt (by omega), be32_wordAt (by omega)⟩
    have fields : buf.take (1 + 3 + 4 + 8 + 4 + 216 + 4) = buf.take 1 ++ (buf.drop 1).take 3 ++
        (buf.drop 4).take 4 ++ (buf.drop 8).take 8 ++ (buf.drop 16).take 4 ++
        (buf.drop 20).take 216 ++ (buf.drop 236).take 4 := by
      rw [List.take_add, List.take_add, List.take_add, List.take_add, List.take_add, List.take_add]
    rw [op, ← words.1, ← words.2.1, ← words.2.2] at fields
    exact fields
  obtain ⟨items, trailing, start⟩ := exists_items (buf.drop 240)
  refine ⟨r, items, trailing, (buf.drop 240).length, rfl, ?_⟩
  rw [← front, ← List.prefix_iff_eq_take.mp start, List.take_append_drop]

theorem parseReply_reply (r : BootReply) (items : List Item) (trailing : List UInt8) (n : Nat)
    (want : UInt8) :
    parseReply (encodeReply r ++ (encodeItems items trailing).take n) r.xid want =
      .ok (if messageType (complete n items) = some want then
        some ⟨r.yiaddr, addressOption dhcpOptServerId (complete n items),
          addressOption dhcpOptLeaseTime (complete n items)⟩ else none) := by
  obtain ⟨header, yiaddr⟩ := encodeReply_header r ((encodeItems items trailing).take n)
  have body : (encodeReply r ++ (encodeItems items trailing).take n).drop dhcpOptionsOffset =
      (encodeItems items trailing).take n := List.drop_left' (encodeReply_length r)
  have options := optionLoop_items items trailing body (Nat.lt_succ_of_le (Nat.sub_le _ _))
    ⟨none, 0, 0⟩
  rw [foldl_note] at options
  rw [parseReply_header header want options, yiaddr]

theorem parseReply_total (buf : List UInt8) (xid : UInt32) (want : UInt8) :
    ∃ result, parseReply buf xid want = .ok result := by
  by_cases header : HeaderFor xid buf
  · obtain ⟨seen, options⟩ := optionLoop_total buf dhcpOptionsOffset ⟨none, 0, 0⟩
    exact ⟨_, parseReply_header header want options⟩
  · exact ⟨none, parseReply_foreign header want⟩

theorem parseReplyInto_ok {buf : List UInt8} {xid : UInt32} {want : UInt8} {result : Option Reply}
    (parsed : parseReply buf xid want = .ok result) (out : Outputs) :
    parseReplyInto buf xid want out =
      .ok (result.elim (0, out) fun reply => (1, out.write reply)) := by
  rw [parseReplyInto, parsed]
  cases result <;> rfl

theorem parseReplyInto_reply (r : BootReply) (items : List Item) (trailing : List UInt8) (n : Nat)
    (want : UInt8) (out : Outputs) :
    parseReplyInto (encodeReply r ++ (encodeItems items trailing).take n) r.xid want out =
      .ok (if messageType (complete n items) = some want then
        (1, out.write ⟨r.yiaddr, addressOption dhcpOptServerId (complete n items),
          addressOption dhcpOptLeaseTime (complete n items)⟩) else (0, out)) := by
  rw [parseReplyInto_ok (parseReply_reply r items trailing n want) out]
  split <;> rfl

/-- `parse_reply` on every input. It returns 0 or 1 without a load at or past `len`, and
writes nothing with 0. A reply of the transaction is accepted by the last complete message
type option, with the address of its header and the last complete server identifier and
lease time; a buffer without such a header is refused. -/
theorem parse_reply_exact :
    (∀ (bytes : List UInt8) len xid want out, ∃ returned outputs,
      parseReplyInto (bytes.take len) xid want out = .ok (returned, outputs) ∧
      (returned = 0 ∨ returned = 1) ∧ (returned = 0 → outputs = out)) ∧
    (∀ (r : BootReply) items trailing n want out,
      parseReplyInto (encodeReply r ++ (encodeItems items trailing).take n) r.xid want out =
        .ok (if messageType (complete n items) = some want then
          (1, out.write ⟨r.yiaddr, addressOption dhcpOptServerId (complete n items),
            addressOption dhcpOptLeaseTime (complete n items)⟩) else (0, out))) ∧
    (∀ buf xid want out, ¬ HeaderFor xid buf → parseReplyInto buf xid want out = .ok (0, out)) := by
  refine ⟨?_, ?_, ?_⟩
  · intro bytes len xid want out
    obtain ⟨result, parsed⟩ := parseReply_total (bytes.take len) xid want
    have ran := parseReplyInto_ok parsed out
    cases result with
    | none => exact ⟨0, out, ran, .inl rfl, fun _ => rfl⟩
    | some reply => exact ⟨1, _, ran, .inr rfl, fun refused => by cases refused⟩
  · exact parseReplyInto_reply
  · intro buf xid want out foreign
    exact parseReplyInto_ok (parseReply_foreign foreign want) out

end Remote8008.Guarantees.DhcpOptions
