import SimplexMethod.Scalar

/-!
# Linear programs

A problem is an objective over variables that are all non-negative, and a list of rows, each
comparing a linear form with a bound. `Problem.fault?` is the first reason to refuse a problem;
every entry of the library that reads a problem refuses by it and with its wording.
-/

namespace SimplexMethod

/-- How a row compares its linear form with its bound. -/
inductive Relation where
  | atMost
  | atLeast
  | equal
deriving DecidableEq

/-- The direction in which the objective improves. -/
inductive Sense where
  | minimise
  | maximise
deriving DecidableEq

/-- One row: a linear form, its bound, and a name that may be empty. -/
structure Constraint (α : Type) where
  coefficients : List α
  rhs : α
  relation : Relation
  name : String := ""
deriving DecidableEq

/-- The linear form to improve. -/
structure Objective (α : Type) where
  coefficients : List α
  sense : Sense
deriving DecidableEq

/-- An objective and the rows that restrict its variables. -/
structure Problem (α : Type) where
  objective : Objective α
  constraints : List (Constraint α)
deriving DecidableEq

/-- Why a problem is refused. A row is called by its label. -/
inductive ProblemFault where
  | noCoefficients
  | objectiveNotFinite
  | wrongLength (label : String) (found expected : Nat)
  | rowNotFinite (label : String)
deriving DecidableEq

/-- The wording of a refusal. -/
def ProblemFault.message : ProblemFault → String
  | .noCoefficients => "Objective must have at least one coefficient."
  | .objectiveNotFinite => "Objective coefficients must be finite."
  | .wrongLength label found expected =>
    s!"Constraint {label} has {found} coefficients, expected {expected}."
  | .rowNotFinite label => s!"Constraint {label} contains a non-finite value."

variable {α : Type} [Scalar α]

namespace Constraint

/-- A row is called by its name, or by its number from one if it has none. -/
def label (row : Constraint α) (index : Nat) : String :=
  if row.name.isEmpty then s!"#{index + 1}" else row.name

/-- The first fault of a row that should have `n` coefficients: its length, then its values. -/
def fault? (row : Constraint α) (n index : Nat) : Option ProblemFault :=
  if row.coefficients.length != n then
    some (.wrongLength (row.label index) row.coefficients.length n)
  else if row.coefficients.all Scalar.isFinite && Scalar.isFinite row.rhs then
    none
  else
    some (.rowNotFinite (row.label index))

end Constraint

namespace Problem

/-- The number of decision variables. -/
def dimension (problem : Problem α) : Nat :=
  problem.objective.coefficients.length

/-- The first fault of a problem: the objective's, then the rows' in order. -/
def fault? (problem : Problem α) : Option ProblemFault :=
  if problem.objective.coefficients.isEmpty then
    some .noCoefficients
  else if !problem.objective.coefficients.all Scalar.isFinite then
    some .objectiveNotFinite
  else
    problem.constraints.zipIdx.findSome? fun (row, index) => row.fault? problem.dimension index

/-- The number of decision variables of a problem without fault. -/
def validate (problem : Problem α) : Except ProblemFault Nat :=
  match problem.fault? with
  | some fault => .error fault
  | none => .ok problem.dimension

end Problem

end SimplexMethod
