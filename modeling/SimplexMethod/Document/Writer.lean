import SimplexMethod.Document.Records
import SimplexMethod.Document.Value

/-!
# Writing records

Every field of a record is written, in the order of its schema. What is written can be read back.
-/

namespace SimplexMethod.Document

/-- Write a list of doubles. -/
def ofFloats (values : List Float) : Value :=
  .list (values.map .float)

/-- Write what may be missing, as null if it is. -/
def ofOptional {β : Type} (write : β → Value) : Option β → Value
  | some value => write value
  | none => .null

/-- Write a row of a problem. -/
def ofConstraint (row : Constraint Float) : Value :=
  .object [("coefficients", ofFloats row.coefficients), ("rhs", .float row.rhs),
    ("relation", .string row.relation.name), ("name", .string row.name)]

/-- Write an objective. -/
def ofObjective (objective : Objective Float) : Value :=
  .object [("coefficients", ofFloats objective.coefficients),
    ("sense", .string objective.sense.name)]

/-- Write options. -/
def ofOptions (options : Options Float) : Value :=
  .object [("max_iters", .int options.maxIterations), ("tol", .float options.tolerance),
    ("pivot_rule", .string options.rule.name), ("two_phase", .bool options.twoPhase),
    ("cycle_guard", .bool options.cycleGuard)]

/-- Write a snapshot. -/
def ofSnapshot (snapshot : SnapshotRecord) : Value :=
  .object [("table", .list (snapshot.table.map ofFloats)),
    ("basis", .list (snapshot.basis.map .int)), ("phase", .int snapshot.phase),
    ("entering", ofOptional .int snapshot.entering),
    ("leaving", ofOptional .int snapshot.leaving), ("iteration", .int snapshot.iteration)]

/-- Write a report. -/
def ofReport (report : Report Float) : Value :=
  .object [("status", .string report.status.name),
    ("objective_value", ofOptional .float report.objectiveValue),
    ("solution", ofOptional ofFloats report.solution),
    ("alternative_optima", .bool report.alternativeOptima), ("iterations", .int report.iterations),
    ("message", .string report.message)]

/-- Write a result. -/
def ofResult (result : ResultRecord) : Value :=
  .object [("history", .list (result.history.map ofSnapshot)), ("report", ofReport result.report)]

end SimplexMethod.Document
