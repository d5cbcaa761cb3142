import SimplexMethod.Problem.Basic
import SimplexMethod.Proofs.Tableau.Shape

/-!
# Acceptance

A problem is accepted when its objective has coefficients, every row has as many, and all numbers
are finite.
-/

namespace SimplexMethod

variable {α : Type} [Scalar α]

/-- The row has `n` coefficients, and only finite numbers. -/
structure Constraint.Accepted (row : Constraint α) (n : Nat) : Prop where
  length_eq : row.coefficients.length = n
  coefficients_finite : ∀ a ∈ row.coefficients, Scalar.isFinite a = true
  rhs_finite : Scalar.isFinite row.rhs = true

theorem Constraint.fault?_eq_none_iff {row : Constraint α} {n index : Nat} :
    row.fault? n index = none ↔ row.Accepted n := by
  have haccepted : row.Accepted n ↔ row.coefficients.length = n ∧
      (∀ a ∈ row.coefficients, Scalar.isFinite a = true) ∧ Scalar.isFinite row.rhs = true :=
    ⟨fun h => ⟨h.length_eq, h.coefficients_finite, h.rhs_finite⟩,
      fun ⟨hlength, hcoefficients, hrhs⟩ => ⟨hlength, hcoefficients, hrhs⟩⟩
  rw [haccepted, fault?]
  by_cases hlength : row.coefficients.length = n
  · simp [hlength]
  · simp [hlength]

/-- Which row is at fault depends on the order of the rows, whether one is does not. -/
theorem Problem.fault?_eq_none_iff {problem : Problem α} :
    problem.fault? = none ↔ 0 < problem.dimension ∧
      (∀ a ∈ problem.objective.coefficients, Scalar.isFinite a = true) ∧
      ∀ row ∈ problem.constraints, row.Accepted problem.dimension := by
  have hrows : problem.constraints.zipIdx.findSome?
        (fun place => place.1.fault? problem.dimension place.2) = none ↔
      ∀ row ∈ problem.constraints, row.Accepted problem.dimension := by
    rw [List.findSome?_eq_none_iff]
    constructor
    · intro h row hr
      obtain ⟨i, hi, rfl⟩ := List.mem_iff_getElem.mp hr
      exact Constraint.fault?_eq_none_iff.mp
        (h (problem.constraints[i], i) (mem_zipIdx_iff.mpr ⟨hi, rfl⟩))
    · rintro h ⟨row, i⟩ hplace
      exact Constraint.fault?_eq_none_iff.mpr (h row (List.fst_mem_of_mem_zipIdx hplace))
  rw [← hrows, dimension, List.length_pos_iff, ← List.all_eq_true]
  unfold fault?
  by_cases hnone : problem.objective.coefficients = []
  · simp [hnone]
  · by_cases hall : problem.objective.coefficients.all Scalar.isFinite = true
    · rw [if_neg (by simpa using hnone), if_neg (by simp [hall])]
      simp only [hnone, hall, ne_eq, not_false_eq_true, true_and]
      rfl
    · rw [if_neg (by simpa using hnone), if_pos (by simp [hall])]
      simp [hall]

theorem Problem.validate_eq_ok {problem : Problem α} (h : problem.fault? = none) :
    problem.validate = .ok problem.dimension := by
  rw [validate, h]

end SimplexMethod
