import SimplexMethod.Problem.Basic
import SimplexMethod.Tableau.Basic

/-!
# The tableau of a problem

Each row of a problem gets one slack column, and the slack columns are the first basis. Costs are
written for minimisation, so those of a maximisation are negated.
-/

namespace SimplexMethod

variable {α : Type} [Scalar α]

/-- The entry of a row in its own slack column: what it leaves over, or what it exceeds. -/
def Relation.slack : Relation → α
  | .atMost => 1
  | .atLeast => -1
  | .equal => 0

/-- The constraint row of the tableau of a problem with the given number of rows. -/
def Constraint.line (row : Constraint α) (count index : Nat) : List α :=
  row.coefficients
    ++ (List.range count).map (fun j => if j = index then row.relation.slack else 0)
    ++ [row.rhs]

/-- The coefficients to minimise. -/
def Objective.costs (objective : Objective α) : List α :=
  match objective.sense with
  | .minimise => objective.coefficients
  | .maximise => objective.coefficients.map (- ·)

namespace Problem

/-- The tableau of a problem, with its slack columns as basis. -/
def start (problem : Problem α) : Position α where
  tableau :=
    { rows := problem.constraints.mapIdx fun index row =>
        row.line problem.constraints.length index
      objective := problem.objective.costs
        ++ List.replicate (problem.constraints.length + 1) 0 }
  basis := List.range' problem.dimension problem.constraints.length

/-- The tableau of a problem without fault. -/
def tableau (problem : Problem α) : Except ProblemFault (Position α) := do
  let _ ← problem.validate
  return problem.start

/-- The slack columns of the equality rows: they are zero throughout and never enter a basis. -/
def idleColumns (problem : Problem α) : List Nat :=
  problem.constraints.zipIdx.filterMap fun (row, index) =>
    if row.relation = .equal then some (problem.dimension + index) else none

@[simp] theorem length_rows_start (problem : Problem α) :
    problem.start.tableau.rows.length = problem.constraints.length := by
  simp [start]

@[simp] theorem length_basis_start (problem : Problem α) :
    problem.start.basis.length = problem.constraints.length := by
  simp [start]

end Problem

end SimplexMethod
