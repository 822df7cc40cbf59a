import Mathlib.Algebra.Order.Group.Nat
import Mathlib.Tactic.Ring

/-!
# Big-endian fields

Fixed-width big-endian octets of a natural number, and the 16 and 32-bit machine
words read from and written to them. Both directions are inverse: an encoded
field decodes to the number modulo its width, and any octets are the encoding of
the number they denote.
-/

namespace Remote8008.Lib.BigEndian

/-- The `width` low octets of `n`, most significant first. -/
def toBe : Nat → Nat → List UInt8
  | 0, _ => []
  | width + 1, n => UInt8.ofNat (n / 256 ^ width) :: toBe width n

/-- The number a list of octets denotes. -/
def ofBe : List UInt8 → Nat
  | [] => 0
  | b :: rest => b.toNat * 256 ^ rest.length + ofBe rest

@[simp] theorem toBe_length (width n : Nat) : (toBe width n).length = width := by
  induction width with
  | zero => rfl
  | succ width ih => simp [toBe, ih]

theorem ofBe_toBe (width n : Nat) : ofBe (toBe width n) = n % 256 ^ width := by
  induction width with
  | zero => simp [toBe, ofBe, Nat.mod_one]
  | succ width ih =>
    have hpow : n % 256 ^ (width + 1) =
        n % 256 ^ width + 256 ^ width * (n / 256 ^ width % 256) := by
      rw [Nat.pow_succ, Nat.mod_mul]
    simp only [toBe, ofBe, toBe_length, ih, UInt8.toNat_ofNat', hpow]
    rw [Nat.mul_comm (256 ^ width), Nat.add_comm]

theorem ofBe_lt (bytes : List UInt8) : ofBe bytes < 256 ^ bytes.length := by
  induction bytes with
  | nil => simp [ofBe]
  | cons b rest ih =>
    have hb : b.toNat + 1 ≤ 256 := b.toNat_lt
    have hmul := Nat.mul_le_mul_right (256 ^ rest.length) hb
    simp only [ofBe, List.length_cons, Nat.pow_succ]
    rw [Nat.add_mul] at hmul
    omega

/-- Only the residue modulo the width is encoded. -/
theorem toBe_add_mul (width n m : Nat) : toBe width (n + m * 256 ^ width) = toBe width n := by
  induction width generalizing m with
  | zero => rfl
  | succ width ih =>
    have hsplit : n + m * 256 ^ (width + 1) = n + (m * 256) * 256 ^ width := by ring
    have hdiv : (n + (m * 256) * 256 ^ width) / 256 ^ width = n / 256 ^ width + m * 256 :=
      Nat.add_mul_div_right n (m * 256) (Nat.pow_pos (by decide))
    simp only [toBe, hsplit, ih, hdiv]
    congr 1
    apply UInt8.toNat_inj.mp
    simp [UInt8.toNat_ofNat']

theorem toBe_ofBe (bytes : List UInt8) : toBe bytes.length (ofBe bytes) = bytes := by
  induction bytes with
  | nil => rfl
  | cons b rest ih =>
    have hlt := ofBe_lt rest
    have hhead : (b.toNat * 256 ^ rest.length + ofBe rest) / 256 ^ rest.length = b.toNat := by
      rw [Nat.add_comm, Nat.add_mul_div_right _ _ (Nat.pow_pos (by decide)), Nat.div_eq_of_lt hlt]
      omega
    simp only [List.length_cons, toBe, ofBe, hhead]
    rw [Nat.add_comm (b.toNat * _), toBe_add_mul, ih]
    simp

def be16 (v : UInt16) : List UInt8 := toBe 2 v.toNat
def be32 (v : UInt32) : List UInt8 := toBe 4 v.toNat
def ofBe16 (bytes : List UInt8) : UInt16 := UInt16.ofNat (ofBe bytes)
def ofBe32 (bytes : List UInt8) : UInt32 := UInt32.ofNat (ofBe bytes)

@[simp] theorem be16_length (v : UInt16) : (be16 v).length = 2 := toBe_length 2 _
@[simp] theorem be32_length (v : UInt32) : (be32 v).length = 4 := toBe_length 4 _

theorem ofBe_be16 (v : UInt16) : ofBe (be16 v) = v.toNat := by
  have hv := v.toNat_lt
  rw [be16, ofBe_toBe]
  omega

@[simp] theorem ofBe16_be16 (v : UInt16) : ofBe16 (be16 v) = v := by
  rw [ofBe16, ofBe_be16, UInt16.ofNat_toNat]

@[simp] theorem ofBe32_be32 (v : UInt32) : ofBe32 (be32 v) = v := by
  apply UInt32.toNat_inj.mp
  have hv := v.toNat_lt
  rw [ofBe32, be32, ofBe_toBe, UInt32.toNat_ofNat']
  omega

theorem be32_ofBe32 (bytes : List UInt8) (four : bytes.length = 4) :
    be32 (ofBe32 bytes) = bytes := by
  have hlt := ofBe_lt bytes
  rw [four] at hlt
  have hfits : (ofBe32 bytes).toNat = ofBe bytes := by
    rw [ofBe32, UInt32.toNat_ofNat']
    exact Nat.mod_eq_of_lt (by omega)
  rw [be32, hfits, ← four]
  exact toBe_ofBe bytes

@[simp] theorem flatMap_be32_length (words : List UInt32) :
    (words.flatMap be32).length = 4 * words.length := by
  induction words with
  | nil => rfl
  | cons w rest ih => simp only [List.flatMap_cons, List.length_append, be32_length, ih,
      List.length_cons]; omega

end Remote8008.Lib.BigEndian
