import SimplexMethod.Problem.Basic
import SimplexMethod.Tableau.Check

/-!
# Reports

A report is what a solve says in the end. `Position.report` reads it off a terminal position: the
basic columns among the first `n` hold the solution, the right-hand side of the objective row the
value, and a column that is neither basic nor barred and costs nothing means other optima.
-/

namespace SimplexMethod

/-- The verdict of a solve. -/
inductive Status where
  | optimal
  | optimalWithAlternatives
  | unbounded
  | infeasible
  | iterationLimit
  | invalid
deriving DecidableEq

/-- The written form of a verdict. -/
def Status.name : Status → String
  | .optimal => "optimal"
  | .optimalWithAlternatives => "optimal_with_alternatives"
  | .unbounded => "unbounded"
  | .infeasible => "infeasible"
  | .iterationLimit => "iteration_limit"
  | .invalid => "invalid"

/-- What a solve says in the end. A solve counts its iterations, but a report may state any
number of them. -/
structure Report (α : Type) where
  status : Status
  objectiveValue : Option α := none
  solution : Option (List α) := none
  alternativeOptima : Bool := false
  iterations : Int := 0
  message : String := ""
deriving DecidableEq

/-- Numbers in brackets, separated by a comma and a blank. -/
def bracketed (numbers : List Nat) : String :=
  "[" ++ ", ".intercalate (numbers.map toString) ++ "]"

variable {α : Type} [Scalar α]

namespace Position

/-- The value of the first `n` columns: the right-hand side of the row in which a column is
basic, the last such row if there are several, and zero for a column that is not basic. -/
def solution (p : Position α) (n : Nat) : List α :=
  p.basis.zipIdx.foldl (fun values (column, row) => values.set column (rhs (p.tableau.line row)))
    (List.replicate n 0)

/-- The solution of a position whose rows for the first `n` columns lie inside the tableau. -/
def solutionAt (p : Position α) (n : Nat) : Except TableauFault (List α) := do
  p.basis.zipIdx.forM fun (column, row) => if column < n then p.tableau.checkLine row else pure ()
  return p.solution n

/-- Some column that is neither basic nor barred costs nothing, up to the tolerance. -/
def hasAlternatives (p : Position α) (barred : List Nat) (tolerance : α) : Bool :=
  (List.range (p.tableau.width - 1)).any fun j =>
    j ∉ p.basis ∧ j ∉ barred ∧ Scalar.magnitude (p.tableau.objective.getD j 0) ≤ tolerance

/-- The objective value. The objective row of a minimisation holds it negated. -/
def objectiveValue (p : Position α) (sense : Sense) : α :=
  match sense with
  | .maximise => rhs p.tableau.objective
  | .minimise => -rhs p.tableau.objective

/-- The report of a terminal position. Values of magnitude below `10⁻¹²` are reported as zero. -/
def report (p : Position α) (n : Nat) (sense : Sense) (iterations : Int) (barred : List Nat)
    (tolerance : α) : Report α :=
  let alternatives := p.hasAlternatives barred tolerance
  { status := if alternatives then .optimalWithAlternatives else .optimal
    objectiveValue := some (Scalar.clean (p.objectiveValue sense))
    solution := some ((p.solution n).map Scalar.clean)
    alternativeOptima := alternatives
    iterations
    message := if alternatives then "Alternative optimal solutions exist." else "" }

/-- The report of a position whose rows for the first `n` columns lie inside the tableau. -/
def reportAt (p : Position α) (n : Nat) (sense : Sense) (iterations : Int) (barred : List Nat)
    (tolerance : α) : Except TableauFault (Report α) := do
  let _ ← p.solutionAt n
  return p.report n sense iterations barred tolerance

end Position

namespace Report

/-- Add a note after the message, if there is one to add. -/
def withNote (report : Report α) (note : String) : Report α :=
  if note.isEmpty then report
  else { report with
    message := if report.message.isEmpty then note else report.message ++ " " ++ note }

end Report

end SimplexMethod
