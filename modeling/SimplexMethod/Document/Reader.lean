import SimplexMethod.Document.Coercion
import SimplexMethod.Document.Records

/-!
# Reading records

The schemas of the six kinds of record: a constraint, an objective, options, a snapshot, a report
and a result. Fields are read in the order in which they are listed, other fields are ignored.
-/

namespace SimplexMethod.Document

/-- Read a row of a problem. -/
def readConstraint (value : Value) : Checked (Constraint Float) :=
  readRecord "Constraint" value fun value =>
    Constraint.mk
      <$> required value "coefficients" (readTuple readFloat)
      <*> required value "rhs" readFloat
      <*> required value "relation" (readChoice Relation.all Relation.name)
      <*> optional value "name" "" readString

/-- Read an objective, which has at least one coefficient. -/
def readObjective (value : Value) : Checked (Objective Float) :=
  readRecord "ObjectiveFunction" value fun value =>
    Objective.mk
      <$> required value "coefficients" (readNonemptyTuple readFloat)
      <*> required value "sense" (readChoice Sense.all Sense.name)

/-- Read an iteration limit, which is at least one. -/
def readLimit (value : Value) : Checked Nat :=
  match readInt value with
  | .accepted n => if n < 1 then .fail (.belowLeast 1) else .accepted n.toNat
  | .refused complaints => .refused complaints

/-- Read options, all of which have defaults. -/
def readOptions (value : Value) : Checked (Options Float) :=
  let defaults : Options Float := {}
  readRecord "SolveOptions" value fun value =>
    Options.mk
      <$> optional value "max_iters" defaults.maxIterations readLimit
      <*> optional value "tol" defaults.tolerance readFloat
      <*> optional value "pivot_rule" defaults.rule (readChoice PivotRule.all PivotRule.name)
      <*> optional value "two_phase" defaults.twoPhase readBool
      <*> optional value "cycle_guard" defaults.cycleGuard readBool

/-- Read the number of a phase. -/
def readPhase : Value → Checked Int :=
  readNumberChoice [1, 2]

/-- Read a snapshot. -/
def readSnapshot (value : Value) : Checked SnapshotRecord :=
  readRecord "TableauSnapshot" value fun value =>
    SnapshotRecord.mk
      <$> required value "table" (readList (readList readFloat))
      <*> required value "basis" (readList readInt)
      <*> optional value "phase" 2 readPhase
      <*> optional value "entering" none (readOptional readInt)
      <*> optional value "leaving" none (readOptional readInt)
      <*> optional value "iteration" 0 readInt

/-- Read a report. -/
def readReport (value : Value) : Checked (Report Float) :=
  readRecord "SolveReport" value fun value =>
    Report.mk
      <$> required value "status" (readChoice Status.all Status.name)
      <*> optional value "objective_value" none (readOptional readFloat)
      <*> optional value "solution" none (readOptional (readList readFloat))
      <*> optional value "alternative_optima" false readBool
      <*> optional value "iterations" 0 readInt
      <*> optional value "message" "" readString

/-- Read a result. -/
def readResult (value : Value) : Checked ResultRecord :=
  readRecord "SolveResult" value fun value =>
    ResultRecord.mk
      <$> optional value "history" [] (readList readSnapshot)
      <*> required value "report" readReport

/-- Name the schema that a refused document was read by. -/
def Checked.orRefusal {β : Type} (schema : String) : Checked β → Except Refusal β
  | .accepted value => .ok value
  | .refused complaints => .error ⟨schema, complaints⟩

end SimplexMethod.Document
