import Mathlib.NumberTheory.Multiplicity
import Mathlib.Logic.Function.Iterate
import Mathlib.Tactic.Ring

/-!
# Linear congruential generators modulo a power of two

`x ↦ a * x + c` on the integers, read modulo `2 ^ w`. With `a` one modulo four and `c`
odd the period is the whole of `2 ^ w`: by lifting the exponent, `k` draws come back to
`x` modulo exactly the powers of two that divide `k`.
-/

namespace Remote8008.Lib.Congruential

def draw (a c x : ℤ) : ℤ := a * x + c

section
variable {a c : ℤ}

theorem mul_draw_iterate_sub (a c x : ℤ) (k : ℕ) :
    (a - 1) * ((draw a c)^[k] x - x) = (a ^ k - 1) * ((a - 1) * x + c) := by
  induction k with
  | zero => simp
  | succ k ih =>
    have split : (a - 1) * ((draw a c)^[k + 1] x - x) =
        a * ((a - 1) * ((draw a c)^[k] x - x)) + (a - 1) * ((a - 1) * x + c) := by
      rw [Function.iterate_succ_apply', draw]
      ring
    rw [split, ih]
    ring

theorem emultiplicity_draw_iterate_sub (four : 4 ∣ a - 1) (several : a ≠ 1) (odd : ¬ 2 ∣ c)
    (x : ℤ) (k : ℕ) : emultiplicity 2 ((draw a c)^[k] x - x) = emultiplicity (2 : ℤ) k := by
  have even : 2 ∣ a - 1 := Dvd.dvd.trans (by decide) four
  have finite : emultiplicity 2 (a - 1) ≠ ⊤ := finiteMultiplicity_iff_emultiplicity_ne_top.mp
    (Int.finiteMultiplicity_iff.mpr ⟨by decide, sub_ne_zero.mpr several⟩)
  have unit : emultiplicity 2 ((a - 1) * x + c) = 0 := by
    rw [emultiplicity_eq_zero]
    exact fun divides => odd ((Int.dvd_add_right (even.mul_right x)).mp divides)
  have lifted : emultiplicity 2 (a ^ k - 1) =
      emultiplicity 2 (a - 1) + emultiplicity (2 : ℤ) k := by
    simpa using Int.two_pow_sub_pow' k four (by omega)
  have both := congrArg (emultiplicity (2 : ℤ)) (mul_draw_iterate_sub a c x k)
  rw [emultiplicity_mul Int.prime_two, emultiplicity_mul Int.prime_two, lifted, unit,
    add_zero] at both
  exact ENat.add_right_injective_of_ne_top finite both

theorem pow_dvd_draw_iterate_sub_iff (four : 4 ∣ a - 1) (several : a ≠ 1) (odd : ¬ 2 ∣ c)
    (x : ℤ) (k w : ℕ) : 2 ^ w ∣ (draw a c)^[k] x - x ↔ (2 : ℤ) ^ w ∣ k := by
  rw [pow_dvd_iff_le_emultiplicity, pow_dvd_iff_le_emultiplicity,
    emultiplicity_draw_iterate_sub four several odd]

end

end Remote8008.Lib.Congruential
