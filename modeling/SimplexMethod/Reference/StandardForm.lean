import SimplexMethod.Fault
import SimplexMethod.Solve

/-!
# Checking against an oracle

A standard form minimises costs over non-negative variables under upper bounds and equations. An
oracle solves standard forms. `crossCheck` hands a problem to an oracle in standard form and reads
the answer in the problem's own sense; `compare` puts it beside the report of the method.
-/

namespace SimplexMethod

/-- A linear form with its bound. -/
structure BoundedForm (α : Type) where
  coefficients : List α
  bound : α

/-- Minimise the costs over non-negative variables; the forms in `upper` are at most their bounds
and those in `equal` are equal to theirs. -/
structure StandardForm (α : Type) where
  costs : List α
  upper : List (BoundedForm α)
  equal : List (BoundedForm α)

/-- What an oracle says about a standard form. -/
inductive Verdict (α : Type) where
  | optimal (point : List α) (value : α)
  | infeasible
  | unbounded
  | undecided

/-- What is known of a problem from an oracle. -/
structure CrossCheck (α : Type) where
  status : Status
  objectiveValue : Option α := none
  point : Option (List α) := none

/-- The report of the method beside what an oracle says. -/
structure Comparison (α : Type) where
  report : Report α
  reference : CrossCheck α

variable {α : Type} [Scalar α]

/-- One for a minimisation, minus one for a maximisation. -/
def Sense.factor : Sense → α
  | .minimise => 1
  | .maximise => -1

namespace Constraint

/-- A row that is not an equation, as an upper bound. -/
def upper? (row : Constraint α) : Option (BoundedForm α) :=
  match row.relation with
  | .atMost => some ⟨row.coefficients, row.rhs⟩
  | .atLeast => some ⟨row.coefficients.map (- ·), -row.rhs⟩
  | .equal => none

/-- A row that is an equation. -/
def equal? (row : Constraint α) : Option (BoundedForm α) :=
  match row.relation with
  | .equal => some ⟨row.coefficients, row.rhs⟩
  | _ => none

end Constraint

namespace Problem

/-- The standard form of a problem. -/
def standardForm (problem : Problem α) : StandardForm α where
  costs := problem.objective.coefficients.map (· * problem.objective.sense.factor)
  upper := problem.constraints.filterMap Constraint.upper?
  equal := problem.constraints.filterMap Constraint.equal?

/-- Ask an oracle about a problem without fault. -/
def crossCheck (problem : Problem α) (oracle : StandardForm α → Verdict α) :
    Except ProblemFault (CrossCheck α) := do
  let _ ← problem.validate
  return match oracle problem.standardForm with
  | .optimal point value =>
    { status := .optimal
      objectiveValue := some (value * problem.objective.sense.factor)
      point := some point }
  | .infeasible => { status := .infeasible }
  | .unbounded => { status := .unbounded }
  | .undecided => { status := .iterationLimit }

/-- Solve a problem with the default options and ask an oracle about it. There is nothing to
compare for a problem without rows. -/
def compare (problem : Problem α) (oracle : StandardForm α → Verdict α) :
    Except Fault (Option (Comparison α)) := do
  let answer ← Fault.ofTableau (solve problem {})
  match answer.result? with
  | none => return none
  | some result =>
    let reference ← Fault.ofProblem (problem.crossCheck oracle)
    return some ⟨result.report, reference⟩

end Problem

end SimplexMethod
