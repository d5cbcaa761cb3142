import SimplexMethod.Problem.Basic

/-!
# Feasible points and their value

The meaning of a problem, apart from any way of solving it: which points the rows admit, what a
point is worth, and when no admitted point is worth more.
-/

namespace SimplexMethod

variable {α : Type} [Scalar α]

/-- The point satisfies the row. -/
def Constraint.Holds (row : Constraint α) (x : List α) : Prop :=
  match row.relation with
  | .atMost => dot row.coefficients x ≤ row.rhs
  | .atLeast => row.rhs ≤ dot row.coefficients x
  | .equal => dot row.coefficients x = row.rhs

/-- The first value is strictly better than the second. -/
def Sense.Improves (sense : Sense) (better worse : α) : Prop :=
  match sense with
  | .minimise => better < worse
  | .maximise => worse < better

namespace Problem

/-- The point has one non-negative entry for each variable and satisfies every row. -/
structure Feasible (problem : Problem α) (x : List α) : Prop where
  length_eq : x.length = problem.dimension
  nonneg : ∀ v ∈ x, 0 ≤ v
  holds : ∀ row ∈ problem.constraints, row.Holds x

/-- What a point is worth. -/
def value (problem : Problem α) (x : List α) : α :=
  dot problem.objective.coefficients x

/-- A feasible point that no feasible point improves on. -/
structure Optimal (problem : Problem α) (x : List α) : Prop extends Feasible problem x where
  best : ∀ y, problem.Feasible y →
    ¬ problem.objective.sense.Improves (problem.value y) (problem.value x)

/-- Feasible points improve on every bound. -/
def Unbounded (problem : Problem α) : Prop :=
  ∀ bound, ∃ x, problem.Feasible x ∧ problem.objective.sense.Improves (problem.value x) bound

end Problem

section Decidable

instance (row : Constraint Rat) (x : List Rat) : Decidable (row.Holds x) :=
  match h : row.relation with
  | .atMost => decidable_of_iff (dot row.coefficients x ≤ row.rhs) (by simp [Constraint.Holds, h])
  | .atLeast => decidable_of_iff (row.rhs ≤ dot row.coefficients x) (by simp [Constraint.Holds, h])
  | .equal => decidable_of_iff (dot row.coefficients x = row.rhs) (by simp [Constraint.Holds, h])

instance (problem : Problem Rat) (x : List Rat) : Decidable (problem.Feasible x) :=
  decidable_of_iff
    (x.length = problem.dimension ∧ (∀ v ∈ x, 0 ≤ v) ∧ ∀ row ∈ problem.constraints, row.Holds x)
    ⟨fun ⟨hlength, hnonneg, hholds⟩ => ⟨hlength, hnonneg, hholds⟩,
      fun h => ⟨h.length_eq, h.nonneg, h.holds⟩⟩

end Decidable

end SimplexMethod
