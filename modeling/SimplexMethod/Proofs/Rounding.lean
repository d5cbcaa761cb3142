import Mathlib.Algebra.Order.Field.Rat
import SimplexMethod.Proofs.Tableau.Discerned

/-!
# Rounding to zero

What is reported is rounded: a number of magnitude below `10⁻¹²` is reported as zero and any other
as it is. So a rounded number differs from the number by less than the bound, and a rounded point
differs in a linear form by no more than the bound times the weight of the form.
-/

namespace SimplexMethod

namespace Scalar

theorem clean_eq (a : ℚ) : clean a = if |a| < 1e-12 then 0 else a := by
  rw [clean, magnitude_eq_abs]

theorem clean_of_abs_lt {a : ℚ} (h : |a| < 1e-12) : clean a = 0 := by
  rw [clean_eq, if_pos h]

theorem clean_of_le_abs {a : ℚ} (h : 1e-12 ≤ |a|) : clean a = a := by
  rw [clean_eq, if_neg (not_lt.mpr h)]

theorem clean_zero : clean (0 : ℚ) = 0 :=
  clean_of_abs_lt (by norm_num)

theorem clean_neg (a : ℚ) : clean (-a) = -clean a := by
  rcases lt_or_ge |a| 1e-12 with hlt | hle
  · rw [clean_of_abs_lt hlt, clean_of_abs_lt (by rwa [abs_neg]), neg_zero]
  · rw [clean_of_le_abs hle, clean_of_le_abs (by rwa [abs_neg])]

theorem clean_eq_self {a : ℚ} (h : a = 0 ∨ 1e-12 ≤ |a|) : clean a = a := by
  rcases h with rfl | hle
  · exact clean_zero
  · exact clean_of_le_abs hle

theorem map_clean_eq_self {x : List ℚ} (h : ∀ v ∈ x, v = 0 ∨ 1e-12 ≤ |v|) : x.map clean = x := by
  calc
    x.map clean = x.map id := List.map_congr_left fun v hv => clean_eq_self (h v hv)
    _ = x := List.map_id x

theorem abs_clean_sub_le (a : ℚ) : |clean a - a| ≤ 1e-12 := by
  rcases lt_or_ge |a| 1e-12 with hlt | hle
  · rw [clean_of_abs_lt hlt, zero_sub, abs_neg]
    exact hlt.le
  · rw [clean_of_le_abs hle, sub_self, abs_zero]
    norm_num

theorem neg_le_clean {slack a : ℚ} (hslack : 0 ≤ slack) (ha : -slack ≤ a) : -slack ≤ clean a := by
  rcases lt_or_ge |a| 1e-12 with hlt | hle
  · rw [clean_of_abs_lt hlt]
    exact neg_nonpos.mpr hslack
  · rwa [clean_of_le_abs hle]

/-- Rounding a point hardly changes a linear form. -/
theorem abs_dot_clean_sub_le (coefficients x : List ℚ) :
    |dot coefficients (x.map clean) - dot coefficients x|
      ≤ 1e-12 * (coefficients.map fun a => |a|).sum := by
  induction coefficients generalizing x with
  | nil => simp [dot]
  | cons a coefficients ih =>
    cases x with
    | nil =>
      have hsum : 0 ≤ ((a :: coefficients).map fun a => |a|).sum :=
        List.sum_nonneg (by simp)
      simpa [dot] using mul_nonneg (by norm_num : (0 : ℚ) ≤ 1e-12) hsum
    | cons b x =>
      rw [List.map_cons, dot_cons, dot_cons, List.map_cons, List.sum_cons, mul_add]
      calc
        |a * clean b + dot coefficients (x.map clean) - (a * b + dot coefficients x)|
            = |a * (clean b - b) + (dot coefficients (x.map clean) - dot coefficients x)| := by
          congr 1
          ring
        _ ≤ |a| * |clean b - b| + |dot coefficients (x.map clean) - dot coefficients x| := by
          rw [← abs_mul]
          exact abs_add_le _ _
        _ ≤ |a| * 1e-12 + 1e-12 * (coefficients.map fun a => |a|).sum :=
          add_le_add (mul_le_mul_of_nonneg_left (abs_clean_sub_le b) (abs_nonneg a)) (ih x)
        _ = 1e-12 * |a| + 1e-12 * (coefficients.map fun a => |a|).sum := by
          rw [mul_comm]

/-- Rounding a point and its value apart changes the value of the point by no more than both. -/
theorem abs_clean_dot_sub_le (coefficients x : List ℚ) :
    |clean (dot coefficients x) - dot coefficients (x.map clean)|
      ≤ 1e-12 * (1 + (coefficients.map fun a => |a|).sum) := by
  calc
    |clean (dot coefficients x) - dot coefficients (x.map clean)|
        ≤ |clean (dot coefficients x) - dot coefficients x|
          + |dot coefficients x - dot coefficients (x.map clean)| := abs_sub_le _ _ _
    _ ≤ 1e-12 + 1e-12 * (coefficients.map fun a => |a|).sum := by
      rw [abs_sub_comm (dot coefficients x)]
      exact add_le_add (abs_clean_sub_le _) (abs_dot_clean_sub_le _ _)
    _ = 1e-12 * (1 + (coefficients.map fun a => |a|).sum) := by ring

end Scalar

namespace Position

variable (p : Position ℚ) (n : ℕ) (sense : Sense) (iterations : ℤ) (barred : List ℕ)
  (tolerance : ℚ)

/-- The solution in the report of a position. -/
theorem solution_report :
    (p.report n sense iterations barred tolerance).solution
      = some ((p.solution n).map fun v => if |v| < 1e-12 then 0 else v) :=
  congrArg some (List.map_congr_left fun v _ => Scalar.clean_eq v)

/-- The value in the report of a position. -/
theorem objectiveValue_report :
    (p.report n sense iterations barred tolerance).objectiveValue
      = some (if |p.objectiveValue sense| < 1e-12 then 0 else p.objectiveValue sense) :=
  congrArg some (Scalar.clean_eq _)

end Position

end SimplexMethod
