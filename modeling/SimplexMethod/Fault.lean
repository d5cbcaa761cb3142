import SimplexMethod.Document.Complaint
import SimplexMethod.Problem.Basic
import SimplexMethod.Tableau.Check

/-!
# Faults

Everything that can be wrong with a request: its documents, the problem it states, or a position
in a tableau.
-/

namespace SimplexMethod

/-- Why a request is refused. -/
inductive Fault where
  | document (refusal : Document.Refusal)
  | problem (fault : ProblemFault)
  | tableau (fault : TableauFault)
deriving DecidableEq

namespace Fault

variable {β : Type}

/-- What was read, or the refusal as a fault. -/
def ofDocument (outcome : Except Document.Refusal β) : Except Fault β :=
  outcome.mapError document

/-- What was found of a problem, or its fault. -/
def ofProblem (outcome : Except ProblemFault β) : Except Fault β :=
  outcome.mapError problem

/-- What was found in a tableau, or its fault. -/
def ofTableau (outcome : Except TableauFault β) : Except Fault β :=
  outcome.mapError tableau

end Fault

end SimplexMethod
