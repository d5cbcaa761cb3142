import SimplexMethod.Event.Basic
import SimplexMethod.Tableau.Artificial

/-!
# Outcomes

What a solve leaves behind: the phases as far as they took place, and the report. The history and
the events of a solve are two views of its outcome, so they tell of the same pivots.
-/

namespace SimplexMethod

/-- How the search for a feasible position ended. -/
inductive Entry (α : Type) where
  | feasible (reduced : Reduced α)
  | infeasible (artificialSum : α)
  | unbounded
  | stopped

/-- The first phase: the prepared tableau, the run from it if some row lacked a start, and how the
search for a feasible position ended. -/
structure FirstPhase (α : Type) where
  prepared : Prepared α
  run : Option (Run α)
  entry : Entry α

/-- A finished solve: its phases as far as they took place, and its report. -/
structure Outcome (α : Type) where
  first : Option (FirstPhase α)
  second : Option (Run α)
  report : Report α

/-- The answer to a problem. -/
inductive Answer (α : Type) where
  | nothingToSolve
  | rejected (fault : ProblemFault)
  | solved (outcome : Outcome α)

/-- What a caller is given: every recorded pivot, and the report. -/
structure Result (α : Type) where
  history : List (Snapshot α)
  report : Report α
deriving DecidableEq

variable {α : Type}

namespace FirstPhase

/-- The number of pivots of the first phase. -/
def iterations (phase : FirstPhase α) : Nat :=
  phase.run.elim 0 Run.iterations

/-- The recorded pivots of the first phase. -/
def snapshots (phase : FirstPhase α) : List (Snapshot α) :=
  phase.run.elim [] (·.snapshots 1 0)

/-- What is told of the first phase. -/
def events (phase : FirstPhase α) : List (Event α) :=
  phase.prepared.events
    ++ phase.run.elim [] (·.events 1)
    ++ match phase.entry with
      | .feasible reduced => reduced.events
      | .infeasible artificialSum => [.artificialSumLeft artificialSum]
      | .unbounded => [.auxiliaryUnbounded]
      | .stopped => []

end FirstPhase

namespace Outcome

/-- The number of pivots of the first phase, if there was one. -/
def firstIterations (outcome : Outcome α) : Nat :=
  outcome.first.elim 0 FirstPhase.iterations

/-- The recorded pivots of both phases. -/
def history (outcome : Outcome α) : List (Snapshot α) :=
  outcome.first.elim [] FirstPhase.snapshots
    ++ outcome.second.elim [] (·.snapshots 2 outcome.firstIterations)

/-- What is told of a finished solve. -/
def events (outcome : Outcome α) : List (Event α) :=
  outcome.first.elim [] FirstPhase.events
    ++ outcome.second.elim [] (·.events 2)
    ++ [.finished outcome.report.status outcome.report.objectiveValue outcome.report.iterations]

end Outcome

namespace Answer

/-- What a caller is given; nothing for a problem without rows. -/
def result? : Answer α → Option (Result α)
  | nothingToSolve => none
  | rejected fault => some ⟨[], { status := .invalid, message := fault.message }⟩
  | solved outcome => some ⟨outcome.history, outcome.report⟩

/-- What is told of a solve. -/
def events : Answer α → List (Event α)
  | nothingToSolve => [.nothingToSolve]
  | rejected fault => [.rejected fault]
  | solved outcome => outcome.events

end Answer

end SimplexMethod
