import Mathlib.Algebra.Order.Field.Basic
import Mathlib.Algebra.Order.Field.Rat
import Mathlib.Order.Interval.Set.Defs
import Mathlib.Tactic.Linarith
import SimplexMethod.Random.Twister

/-!
# Uniform draws

Whatever the state of the generator, a draw takes one of the `2 ^ 53` values it can take, so a
uniform draw over the rationals lies between its bounds and does not reach the upper one.
-/

namespace SimplexMethod

theorem Scalar.ofNat_eq_cast (n : ℕ) : (Scalar.ofNat n : ℚ) = n := by
  change Rat.ofScientific n false 0 = n
  rw [Rat.ofScientific_false_def, pow_zero, mul_one]

namespace Random

/-- A shift to the right by a number of bits leaves as many fewer. -/
theorem toNat_shiftRight_lt (word shift : UInt32) (bits : ℕ) (h : bits + shift.toNat % 32 = 32) :
    (word >>> shift).toNat < 2 ^ bits := by
  rw [UInt32.toNat_shiftRight, Nat.shiftRight_eq_div_pow]
  apply Nat.div_lt_of_lt_mul
  rw [Nat.mul_comm, ← Nat.pow_add, h]
  exact word.toNat_lt

namespace Twister

/-- A draw is made of 27 bits of one word and 26 bits of the next. -/
theorem draw_lt (twister : Twister) : twister.draw.1 < drawCount := by
  have hupper := toNat_shiftRight_lt twister.next.1 5 27 rfl
  have hlower := toNat_shiftRight_lt twister.next.2.next.1 6 26 rfl
  change (twister.next.1 >>> 5).toNat * 67108864 + (twister.next.2.next.1 >>> 6).toNat
    < 9007199254740992
  omega

variable {low high : ℚ} (h : low < high) (twister : Twister)

include h

theorem uniform_mem : (twister.uniform low high).1 ∈ Set.Ico low high := by
  have hpositive : (0 : ℚ) < drawCount := by norm_num [drawCount]
  have hdraw : (twister.draw.1 : ℚ) < drawCount := by exact_mod_cast twister.draw_lt
  have hnonneg : (0 : ℚ) ≤ twister.draw.1 / drawCount :=
    div_nonneg (Nat.cast_nonneg _) hpositive.le
  have hlt : (twister.draw.1 : ℚ) / drawCount < 1 := (div_lt_one hpositive).mpr hdraw
  have hvalue : (twister.uniform low high).1
      = low + (high - low) * (twister.draw.1 / drawCount) := by
    rw [← Scalar.ofNat_eq_cast, ← Scalar.ofNat_eq_cast]
    rfl
  have hspan : 0 < high - low := sub_pos.mpr h
  rw [hvalue]
  constructor
  · linarith [mul_nonneg hspan.le hnonneg]
  · linarith [mul_lt_of_lt_one_right hspan hlt]

omit h in
theorem length_uniforms (low high : ℚ) (count : ℕ) :
    (twister.uniforms low high count).1.length = count := by
  induction count generalizing twister with
  | zero => rfl
  | succ count ih => exact congrArg (· + 1) (ih (twister.uniform low high).2)

theorem uniforms_mem (count : ℕ) :
    ∀ a ∈ (twister.uniforms low high count).1, a ∈ Set.Ico low high := by
  induction count generalizing twister with
  | zero => exact fun a ha => absurd ha List.not_mem_nil
  | succ count ih =>
    intro a ha
    rcases List.mem_cons.mp ha with rfl | ha
    · exact twister.uniform_mem h
    · exact ih (twister.uniform low high).2 a ha

end Twister

end Random

end SimplexMethod
