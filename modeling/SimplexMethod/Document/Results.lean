import SimplexMethod.Document.Reader
import SimplexMethod.Document.Writer
import SimplexMethod.Solve

/-!
# Problems read and results written

A problem is read from three documents, each by its own schema: the objective, the rows one after
another, and the options. The first that is refused ends the reading. Results of the method are
turned into records.
-/

namespace SimplexMethod

/-- The record of a snapshot. -/
def Snapshot.toRecord (snapshot : Snapshot Float) : Document.SnapshotRecord where
  table := snapshot.position.tableau.lines
  basis := snapshot.position.basis.map Int.ofNat
  phase := snapshot.phase
  entering := some snapshot.entering
  leaving := some snapshot.leaving
  iteration := snapshot.iteration

/-- The record of a result. -/
def Result.toRecord (result : Result Float) : Document.ResultRecord where
  history := result.history.map Snapshot.toRecord
  report := result.report

namespace Document

/-- Read a problem. Without `checked` the objective may have no coefficients. -/
def readProblem (objective : Value) (constraints : List Value) (checked : Bool) :
    Except Refusal (Problem Float) := do
  let read := if checked then readObjective else fun value =>
    Objective.mk
      <$> required value "coefficients" (readTuple readFloat)
      <*> required value "sense" (readChoice Sense.all Sense.name)
  let objective ← (read objective).orRefusal "ObjectiveFunction"
  let constraints ← constraints.mapM fun row => (readConstraint row).orRefusal "Constraint"
  return { objective, constraints }

/-- Read options; null stands for the defaults. -/
def readOptionsOrDefault : Value → Except Refusal (Options Float)
  | .null => .ok {}
  | value => (readOptions value).orRefusal "SolveOptions"

end Document

end SimplexMethod
