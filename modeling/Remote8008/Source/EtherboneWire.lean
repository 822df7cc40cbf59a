import Remote8008.Lib.BigEndian

/-!
# The Etherbone record grammar

The subset of Etherbone spoken on the wire (firmware/eb8008.c:8-21, SPEC.md
S-WIRE-2): an eight-byte packet header, then records. A record header carries the
two counts; a section with a non-zero count is a leading word followed by that
many words, all 32-bit big-endian. Counts are bytes, so a section can be neither
empty nor longer than 255 words: both bounds are fields of `Section`.
-/

namespace Remote8008.Source.EtherboneWire
open Lib.BigEndian

/-- A counted section. The leading word is the base address of a write section
and the return identifier of a read section. -/
structure Section where
  head : UInt32
  items : List UInt32
  nonempty : 0 < items.length
  fits : items.length ≤ 255
  deriving DecidableEq

/-- A section of one word. -/
def Section.single (head item : UInt32) : Section :=
  ⟨head, [item], by simp, by simp⟩

structure Record where
  flags : UInt8
  byteEnable : UInt8
  writes : Option Section
  reads : Option Section
  deriving DecidableEq

/-- Packet header after the magic. -/
structure Header where
  flags : UInt8
  sizes : UInt8
  reserved : UInt32
  deriving DecidableEq

/-- `addr_size` and `port_size`, both 4. -/
def wordSizes : UInt8 := 0x44

def Section.size (s : Section) : Nat := 4 * (1 + s.items.length)

def sectionSize (s : Option Section) : Nat := (s.map Section.size).getD 0

def Record.size (r : Record) : Nat := 4 + sectionSize r.writes + sectionSize r.reads

def count (s : Option Section) : UInt8 := UInt8.ofNat ((s.map fun t => t.items.length).getD 0)

def encodeSection : Option Section → List UInt8
  | none => []
  | some s => be32 s.head ++ s.items.flatMap be32

def encodeRecord (r : Record) : List UInt8 :=
  [r.flags, r.byteEnable, count r.writes, count r.reads] ++
    (encodeSection r.writes ++ encodeSection r.reads)

def encodeHeader (h : Header) : List UInt8 :=
  [0x4e, 0x6f, h.flags, h.sizes] ++ be32 h.reserved

def encode (h : Header) (rs : List Record) : List UInt8 :=
  encodeHeader h ++ rs.flatMap encodeRecord

/-- `n` words off the front of the input. -/
def takeWords : Nat → List UInt8 → Option (List UInt32 × List UInt8)
  | 0, bytes => some ([], bytes)
  | n + 1, b0 :: b1 :: b2 :: b3 :: rest =>
    (takeWords n rest).map fun (words, left) => (ofBe32 [b0, b1, b2, b3] :: words, left)
  | _ + 1, _ => none

def decodeSection (count : UInt8) (bytes : List UInt8) :
    Option (Option Section × List UInt8) :=
  if count = 0 then some (none, bytes)
  else match takeWords (1 + count.toNat) bytes with
    | some (head :: items, rest) =>
      if h : 0 < items.length ∧ items.length ≤ 255 then
        some (some ⟨head, items, h.1, h.2⟩, rest)
      else none
    | _ => none

/-- Records up to the end of the input; every record consumes its header, so the
input length bounds the recursion. -/
def decodeRecords : Nat → List UInt8 → Option (List Record)
  | _, [] => some []
  | fuel + 1, flags :: byteEnable :: wcount :: rcount :: rest => do
    let (writes, rest) ← decodeSection wcount rest
    let (reads, rest) ← decodeSection rcount rest
    let records ← decodeRecords fuel rest
    return ⟨flags, byteEnable, writes, reads⟩ :: records
  | _, _ => none

def decode : List UInt8 → Option (Header × List Record)
  | 0x4e :: 0x6f :: flags :: sizes :: b0 :: b1 :: b2 :: b3 :: rest =>
    (decodeRecords rest.length rest).map fun records =>
      (⟨flags, sizes, ofBe32 [b0, b1, b2, b3]⟩, records)
  | _ => none

@[simp] theorem encodeSection_length (s : Option Section) :
    (encodeSection s).length = sectionSize s := by
  cases s with
  | none => rfl
  | some s =>
    simp only [encodeSection, sectionSize, Section.size, List.length_append, be32_length,
      flatMap_be32_length, Option.map_some, Option.getD_some]
    omega

@[simp] theorem encodeRecord_length (r : Record) : (encodeRecord r).length = r.size := by
  simp only [encodeRecord, Record.size, List.length_append, List.length_cons, List.length_nil,
    encodeSection_length]
  omega

@[simp] theorem encodeHeader_length (h : Header) : (encodeHeader h).length = 8 := by
  simp [encodeHeader]

theorem count_some (s : Section) : (count (some s)).toNat = s.items.length := by
  have hfits := s.fits
  simp only [count, Option.map_some, Option.getD_some, UInt8.toNat_ofNat']
  omega

theorem count_none : count none = 0 := rfl

theorem count_some_ne_zero (s : Section) : count (some s) ≠ 0 := by
  intro hzero
  have hlength := count_some s
  have hpos := s.nonempty
  rw [hzero] at hlength
  simp at hlength
  omega

theorem takeWords_flatMap (words : List UInt32) (rest : List UInt8) :
    takeWords words.length (words.flatMap be32 ++ rest) = some (words, rest) := by
  induction words with
  | nil => rfl
  | cons w tail ih =>
    obtain ⟨b0, b1, b2, b3, hb⟩ : ∃ b0 b1 b2 b3, be32 w = [b0, b1, b2, b3] := ⟨_, _, _, _, rfl⟩
    have hw : ofBe32 [b0, b1, b2, b3] = w := by rw [← hb, ofBe32_be32]
    simp only [List.flatMap_cons, hb, List.length_cons, List.cons_append, List.nil_append,
      takeWords, ih, Option.map_some, hw]

theorem decodeSection_encode (s : Option Section) (rest : List UInt8) :
    decodeSection (count s) (encodeSection s ++ rest) = some (s, rest) := by
  cases s with
  | none => rfl
  | some s =>
    have hwords := takeWords_flatMap (s.head :: s.items) rest
    simp only [List.flatMap_cons, List.length_cons, Nat.add_comm s.items.length 1] at hwords
    simp only [decodeSection, if_neg (count_some_ne_zero s), encodeSection, count_some, hwords]
    rw [dif_pos ⟨s.nonempty, s.fits⟩]

theorem decodeRecords_encode (rs : List Record) (fuel : Nat) (enough : rs.length ≤ fuel) :
    decodeRecords fuel (rs.flatMap encodeRecord) = some rs := by
  induction rs generalizing fuel with
  | nil => cases fuel <;> rfl
  | cons r rest ih =>
    cases fuel with
    | zero => simp at enough
    | succ fuel =>
      have hrest := ih fuel (by simpa using enough)
      simp only [List.flatMap_cons, encodeRecord, List.cons_append, List.nil_append,
        List.append_assoc, decodeRecords, decodeSection_encode, bind, Option.bind] at *
      rw [hrest]
      rfl

/-- The grammar is unambiguous: every packet decodes to itself. -/
theorem decode_encode (h : Header) (rs : List Record) : decode (encode h rs) = some (h, rs) := by
  obtain ⟨b0, b1, b2, b3, hb⟩ : ∃ b0 b1 b2 b3, be32 h.reserved = [b0, b1, b2, b3] :=
    ⟨_, _, _, _, rfl⟩
  have hw : ofBe32 [b0, b1, b2, b3] = h.reserved := by rw [← hb, ofBe32_be32]
  have henough : rs.length ≤ (rs.flatMap encodeRecord).length := by
    induction rs with
    | nil => simp
    | cons r rest ih =>
      simp only [List.flatMap_cons, List.length_append, encodeRecord_length, List.length_cons,
        Record.size]
      omega
  have hrecords := decodeRecords_encode rs _ henough
  simp only [encode, encodeHeader, hb, List.cons_append, List.nil_append, decode, hrecords,
    Option.map_some, hw]

end Remote8008.Source.EtherboneWire
