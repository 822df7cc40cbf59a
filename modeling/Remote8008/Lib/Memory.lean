import Mathlib.Data.List.Basic
import Remote8008.Lib.BigEndian

/-!
# Byte memories

A memory is a function from addresses to bytes; nothing is out of bounds. A store
replaces a run of bytes, a load reads one back. Loads commute with stores that do
not touch the run they read, which is all that field-by-field access to a packed
record needs.
-/

namespace Remote8008.Lib.Memory
open BigEndian

abbrev Mem := Nat → UInt8

def ofBytes (bytes : List UInt8) : Mem := fun i => bytes[i]?.getD 0

def store (m : Mem) (start : Nat) (bytes : List UInt8) : Mem := fun i =>
  if start ≤ i ∧ i < start + bytes.length then bytes[i - start]?.getD 0 else m i

def load (m : Mem) (start len : Nat) : List UInt8 := (List.range len).map fun i => m (start + i)

def store8 (m : Mem) (start : Nat) (v : UInt8) : Mem := store m start [v]
def store16 (m : Mem) (start : Nat) (v : UInt16) : Mem := store m start (be16 v)
def store32 (m : Mem) (start : Nat) (v : UInt32) : Mem := store m start (be32 v)
def load16 (m : Mem) (start : Nat) : UInt16 := ofBe16 (load m start 2)
def load32 (m : Mem) (start : Nat) : UInt32 := ofBe32 (load m start 4)

@[simp] theorem load_length (m : Mem) (start len : Nat) : (load m start len).length = len := by
  simp [load]

theorem load_congr {m m' : Mem} {start len : Nat}
    (same : ∀ i, start ≤ i → i < start + len → m i = m' i) :
    load m start len = load m' start len := by
  apply List.map_congr_left
  intro i member
  have inside := List.mem_range.mp member
  exact same (start + i) (by omega) (by omega)

theorem store_outside (m : Mem) (start : Nat) (bytes : List UInt8) {i : Nat}
    (outside : i < start ∨ start + bytes.length ≤ i) : store m start bytes i = m i := by
  rw [store, if_neg (by omega)]

theorem store_inside (m : Mem) (start : Nat) (bytes : List UInt8) {i : Nat}
    (inside : i < bytes.length) : store m start bytes (start + i) = bytes[i]?.getD 0 := by
  rw [store, if_pos (by omega), Nat.add_sub_cancel_left]

theorem load_store (m : Mem) (start : Nat) (bytes : List UInt8) :
    load (store m start bytes) start bytes.length = bytes := by
  apply List.ext_getElem
  · simp
  · intro i _ inside
    simp [load, store_inside m start bytes inside, List.getElem?_eq_getElem inside]

/-- Frame rule. -/
theorem load_store_outside (m : Mem) {start len place : Nat} {bytes : List UInt8}
    (apart : start + len ≤ place ∨ place + bytes.length ≤ start) :
    load (store m place bytes) start len = load m start len :=
  load_congr fun _ low high => store_outside m place bytes (by omega)

theorem load_store8_outside (m : Mem) {start len place : Nat} (v : UInt8)
    (apart : start + len ≤ place ∨ place + 1 ≤ start) :
    load (store8 m place v) start len = load m start len :=
  load_store_outside m apart

theorem load_store16_outside (m : Mem) {start len place : Nat} (v : UInt16)
    (apart : start + len ≤ place ∨ place + 2 ≤ start) :
    load (store16 m place v) start len = load m start len :=
  load_store_outside m (by simpa using apart)

theorem load_store32_outside (m : Mem) {start len place : Nat} (v : UInt32)
    (apart : start + len ≤ place ∨ place + 4 ≤ start) :
    load (store32 m place v) start len = load m start len :=
  load_store_outside m (by simpa using apart)

theorem load_append (m : Mem) (start first second : Nat) :
    load m start (first + second) = load m start first ++ load m (start + first) second := by
  simp [load, List.range_add, Nat.add_assoc]

/-- A run of a loaded run is a load. -/
theorem load_slice (m : Mem) {start len first count : Nat} (inside : first + count ≤ len) :
    ((load m start len).drop first).take count = load m (start + first) count := by
  apply List.ext_getElem
  · simp
    omega
  · intro i _ _
    simp [load, Nat.add_assoc]

/-! ## Records assembled by stores -/

/-- `bytes` stand in the memory from `start` on. -/
def Holds (m : Mem) (start : Nat) (bytes : List UInt8) : Prop :=
  load m start bytes.length = bytes

theorem holds_load (m : Mem) (start len : Nat) : Holds m start (load m start len) := by
  rw [Holds, load_length]

theorem holds_store (m : Mem) (start : Nat) (bytes : List UInt8) :
    Holds (store m start bytes) start bytes :=
  load_store m start bytes

theorem holds_ofBytes (bytes : List UInt8) : Holds (ofBytes bytes) 0 bytes := by
  apply List.ext_getElem
  · simp
  · intro i _ inside
    simp [load, ofBytes, List.getElem?_eq_getElem inside]

theorem holds_append {m : Mem} {start : Nat} {first second : List UInt8} :
    Holds m start (first ++ second) ↔
      Holds m start first ∧ Holds m (start + first.length) second := by
  unfold Holds
  rw [List.length_append, load_append]
  constructor
  · intro whole
    exact List.append_inj whole (load_length ..)
  · rintro ⟨head, tail⟩
    rw [head, tail]

theorem Holds.keep {m : Mem} {start : Nat} {bytes : List UInt8} (holds : Holds m start bytes)
    (place : Nat) (other : List UInt8)
    (apart : start + bytes.length ≤ place ∨ place + other.length ≤ start) :
    Holds (store m place other) start bytes :=
  (load_store_outside m apart).trans holds

/-- The next field of a record. -/
theorem Holds.next {m : Mem} {start : Nat} {bytes : List UInt8} (holds : Holds m start bytes)
    (place : Nat) (more : List UInt8) (behind : place = start + bytes.length) :
    Holds (store m place more) start (bytes ++ more) := by
  subst behind
  exact holds_append.mpr ⟨holds.keep _ more (.inl (Nat.le_refl _)), holds_store ..⟩

/-- A field that is filled in afterwards. -/
theorem Holds.fill {m : Mem} {start : Nat} {before blank after : List UInt8}
    (holds : Holds m start (before ++ blank ++ after)) (place : Nat) (value : List UInt8)
    (size : value.length = blank.length) (position : place = start + before.length) :
    Holds (store m place value) start (before ++ value ++ after) := by
  subst position
  obtain ⟨head, tail⟩ := holds_append.mp holds
  have first := (holds_append.mp head).1
  apply holds_append.mpr
  constructor
  · exact first.next _ value rfl
  · simp only [List.length_append, size] at tail ⊢
    exact tail.keep _ value (.inr (by omega))

theorem Holds.load_take {m : Mem} {start : Nat} {bytes : List UInt8} (holds : Holds m start bytes)
    {len : Nat} (inside : len ≤ bytes.length) : load m start len = bytes.take len := by
  have slice : ((load m start bytes.length).drop 0).take len = load m (start + 0) len :=
    load_slice m (by omega)
  rw [holds] at slice
  simpa using slice.symm

theorem Holds.byte {m : Mem} {start : Nat} {b : UInt8} (holds : Holds m start [b]) :
    m start = b := by
  simpa [Holds, load] using holds

theorem Holds.load16 {m : Mem} {start : Nat} {v : UInt16} (holds : Holds m start (be16 v)) :
    load16 m start = v := by
  have bytes : load m start 2 = be16 v := holds
  rw [Memory.load16, bytes, ofBe16_be16]

theorem Holds.load32 {m : Mem} {start : Nat} {v : UInt32} (holds : Holds m start (be32 v)) :
    load32 m start = v := by
  have bytes : load m start 4 = be32 v := holds
  rw [Memory.load32, bytes, ofBe32_be32]

end Remote8008.Lib.Memory
