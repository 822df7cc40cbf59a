import Mathlib.Algebra.BigOperators.Group.List.Basic
import Remote8008.Lib.BigEndian

/-!
# One's-complement sums

The Internet checksum. Bytes are read as big-endian 16-bit words, an odd last byte as the
high byte of a zero-padded word, and summed with end-around carry; a message verifies when
its sum, checksum included, is `0xffff`. Summing in a wide accumulator and folding the
carries afterwards gives the same result, because both compute the total modulo `0xffff`
with the zero residue represented by `0xffff` unless every word is zero.
-/

namespace Remote8008.Lib.OnesComplement
open BigEndian

def words : List UInt8 → List Nat
  | [] => []
  | [last] => [256 * last.toNat]
  | high :: low :: rest => (256 * high.toNat + low.toNat) :: words rest

/-- Addition with end-around carry. -/
def add (a b : Nat) : Nat := if a + b < 2 ^ 16 then a + b else a + b - 0xffff

def sum (bytes : List UInt8) : Nat := (words bytes).foldl add 0

def Verifies (bytes : List UInt8) : Prop := sum bytes = 0xffff

instance (bytes : List UInt8) : Decidable (Verifies bytes) := inferInstanceAs (Decidable (_ = _))

/-- The total, of any size, as a 16-bit sum. -/
def fold (total : Nat) : Nat := if total = 0 then 0 else (total - 1) % 0xffff + 1

/-- The checksum of a sum; a zero checksum is sent as its other representation. -/
def complement (sum : Nat) : Nat := if 0xffff - sum = 0 then 0xffff else 0xffff - sum

/-- The field that makes a message verify, computed with the field itself zero. -/
def checksum (message : List UInt8) : UInt16 := UInt16.ofNat (complement (sum message))

/-- A message around its checksum field, which also covers a header that is not sent. -/
def withChecksum (pseudo before after : List UInt8) : List UInt8 :=
  before ++ be16 (checksum (pseudo ++ before ++ be16 0 ++ after)) ++ after

/-! ## Sums and totals -/

theorem words_lt (bytes : List UInt8) : ∀ word ∈ words bytes, word < 2 ^ 16 := by
  induction bytes using words.induct with
  | case1 => simp [words]
  | case2 last =>
    have := last.toNat_lt
    simp only [words, List.mem_singleton, forall_eq]
    omega
  | case3 high low rest ih =>
    have := high.toNat_lt
    have := low.toNat_lt
    simp only [words, List.mem_cons, forall_eq_or_imp]
    exact ⟨by omega, ih⟩

theorem fold_of_lt {total : Nat} (small : total < 2 ^ 16) : fold total = total := by
  unfold fold
  split <;> omega

theorem add_fold (total : Nat) {word : Nat} (small : word < 2 ^ 16) :
    add (fold total) word = fold (total + word) := by
  unfold add fold
  split <;> split <;> split <;> omega

theorem foldl_add_fold (ws : List Nat) (small : ∀ word ∈ ws, word < 2 ^ 16) (total : Nat) :
    ws.foldl add (fold total) = fold (total + ws.sum) := by
  induction ws generalizing total with
  | nil => simp
  | cons word rest ih =>
    rw [List.foldl_cons, add_fold total (small word (by simp)),
      ih (fun other member => small other (by simp [member])), List.sum_cons, Nat.add_assoc]

theorem sum_eq_fold (bytes : List UInt8) : sum bytes = fold (words bytes).sum := by
  have whole := foldl_add_fold (words bytes) (words_lt bytes) 0
  rwa [Nat.zero_add] at whole

theorem fold_fold_add (a b : Nat) : fold (fold a + b) = fold (a + b) := by
  unfold fold
  split <;> split <;> split <;> omega

theorem fold_eq_ones_iff (total : Nat) : fold total = 0xffff ↔ 0 < total ∧ total % 0xffff = 0 := by
  unfold fold
  split <;> omega

theorem verifies_iff (bytes : List UInt8) :
    Verifies bytes ↔ 0 < (words bytes).sum ∧ (words bytes).sum % 0xffff = 0 := by
  rw [Verifies, sum_eq_fold, fold_eq_ones_iff]

theorem complement_pos (n : Nat) : 0 < complement n := by
  unfold complement
  split <;> omega

theorem complement_lt (n : Nat) : complement n < 2 ^ 16 := by
  unfold complement
  split <;> omega

/-- A total completed by its checksum is a multiple of `0xffff`. -/
theorem complement_completes (total : Nat) :
    (total + complement (fold total)) % 0xffff = 0 := by
  unfold complement fold
  split <;> split <;> omega

/-! ## Words of a message -/

theorem words_append (first second : List UInt8) (even : first.length % 2 = 0) :
    words (first ++ second) = words first ++ words second := by
  induction first using words.induct with
  | case1 => simp [words]
  | case2 last => simp at even
  | case3 high low rest ih =>
    have shorter : rest.length % 2 = 0 := by
      simp only [List.length_cons] at even
      omega
    simp [words, ih shorter]

theorem words_be16 (v : UInt16) : words (be16 v) = [v.toNat] := by
  have lt := v.toNat_lt
  simp only [be16, toBe, words, List.cons.injEq, and_true]
  simp only [Nat.pow_one, Nat.pow_zero, Nat.div_one, UInt8.toNat_ofNat']
  omega

/-- The zero byte that completes an odd message changes no word. -/
theorem words_pad (bytes : List UInt8) (odd : bytes.length % 2 = 1) :
    words (bytes ++ [0]) = words bytes := by
  induction bytes using words.induct with
  | case1 => simp at odd
  | case2 last => simp [words]
  | case3 high low rest ih =>
    have shorter : rest.length % 2 = 1 := by
      simp only [List.length_cons] at odd
      omega
    simp [words, ih shorter]

theorem checksum_toNat (message : List UInt8) :
    (checksum message).toNat = complement (sum message) := by
  rw [checksum, UInt16.toNat_ofNat', Nat.mod_eq_of_lt (complement_lt _)]

/-- A message verifies with its own checksum at any even place. -/
theorem verifies_withChecksum (pseudo before after : List UInt8)
    (even : (pseudo ++ before).length % 2 = 0) :
    Verifies (pseudo ++ withChecksum pseudo before after) := by
  have total (field : UInt16) : (words (pseudo ++ before ++ be16 field ++ after)).sum =
      (words (pseudo ++ before)).sum + field.toNat + (words after).sum := by
    rw [List.append_assoc, words_append (pseudo ++ before) _ even,
      words_append _ after (by simp), words_be16]
    simp [Nat.add_assoc]
  have completes := complement_completes (words (pseudo ++ before ++ be16 0 ++ after)).sum
  have positive := complement_pos (sum (pseudo ++ before ++ be16 0 ++ after))
  rw [← sum_eq_fold, ← checksum_toNat, total 0] at completes
  rw [← checksum_toNat] at positive
  have split : pseudo ++ withChecksum pseudo before after = pseudo ++ before ++
      be16 (checksum (pseudo ++ before ++ be16 0 ++ after)) ++ after := by
    simp [withChecksum]
  rw [split, verifies_iff, total]
  have zero : (0 : UInt16).toNat = 0 := rfl
  omega

theorem checksum_ne_zero (message : List UInt8) : checksum message ≠ 0 := by
  intro zero
  have positive := complement_pos (sum message)
  rw [← checksum_toNat, zero] at positive
  exact absurd positive (by decide)

/-- A byte left out of the checksum is noticed unless it is zero. -/
theorem verifies_concat_iff {bytes : List UInt8} (even : bytes.length % 2 = 0)
    (verifies : Verifies bytes) (last : UInt8) : Verifies (bytes ++ [last]) ↔ last = 0 := by
  have lt := last.toNat_lt
  rw [verifies_iff] at verifies ⊢
  rw [words_append bytes [last] even, List.sum_append]
  simp only [words, List.sum_singleton]
  rw [← UInt8.toNat_inj]
  have zero : (0 : UInt8).toNat = 0 := rfl
  omega

end Remote8008.Lib.OnesComplement
