import SimplexMethod.Outcome
import SimplexMethod.Tableau.Costs
import SimplexMethod.Tableau.Initial

/-!
# The two-phase method

The first phase minimises the sum of the artificial columns from the prepared tableau and then
takes them out; it is skipped when no row lacks a start, and altogether in a single-phase solve.
The second phase minimises the costs with the budget that is left.

The steps are the checked ones: a solve that read outside a tableau would be refused.
-/

namespace SimplexMethod

variable {α : Type} [Scalar α]

/-- Search for a feasible position: minimise the artificial columns from the prepared tableau,
then take them out and install the costs. The sum of the artificial columns may exceed zero by the
tolerance, scaled with the largest right-hand side. -/
def firstPhase (start : Position α) (options : Options α) (barred : List Nat) :
    Except TableauFault (FirstPhase α) := do
  let prepared ← start.prepareAt options.tolerance
  if prepared.artificial.isEmpty then
    return ⟨prepared, none, .feasible ⟨prepared.position, []⟩⟩
  let run := prepared.position.run options barred options.maxIterations
  match run.ending with
  | .stopped => return ⟨prepared, some run, .stopped⟩
  | .unbounded _ => return ⟨prepared, some run, .unbounded⟩
  | .noBasicColumn => throw .noBasicColumn
  | .optimal =>
    let artificialSum := -rhs run.last.tableau.objective
    if options.tolerance * prepared.scale < artificialSum then
      return ⟨prepared, some run, .infeasible artificialSum⟩
    let reduced ← run.last.removeArtificialAt prepared.artificial options.tolerance
    let tableau ← reduced.position.installAt start.tableau.objective
    return ⟨prepared, some run, .feasible ⟨⟨tableau, reduced.position.basis⟩, reduced.dropped⟩⟩

/-- The note on rows that were dropped. -/
def droppedNote (dropped : List Nat) : String :=
  if dropped.isEmpty then "" else s!"Removed redundant constraint rows {bracketed dropped}."

/-- The report of a run of the second phase that follows `earlier` pivots. -/
def secondReport (problem : Problem α) (options : Options α) (earlier : Nat) (run : Run α) :
    Except TableauFault (Report α) :=
  let iterations : Int := earlier + run.iterations
  match run.ending with
  | .unbounded _ =>
    return { status := .unbounded, iterations,
             message := "Objective is unbounded; no optimal solution." }
  | .stopped =>
    return { status := .iterationLimit, iterations,
             message := "Hit iteration limit in Phase II." }
  | .noBasicColumn => .error .noBasicColumn
  | .optimal =>
    run.last.reportAt problem.dimension problem.objective.sense iterations problem.idleColumns
      options.tolerance

/-- Minimise the costs from a position, with the budget that `earlier` pivots leave. -/
def secondRun (problem : Problem α) (options : Options α) (position : Position α)
    (earlier : Nat) : Run α :=
  position.run options problem.idleColumns (options.maxIterations - earlier)

/-- Solve in two phases. -/
def solveTwoPhase (problem : Problem α) (options : Options α) :
    Except TableauFault (Outcome α) := do
  let first ← firstPhase problem.start options problem.idleColumns
  let iterations := first.iterations
  match first.entry with
  | .stopped =>
    return ⟨some first, none,
      { status := .iterationLimit, iterations, message := "Hit iteration limit in Phase I." }⟩
  | .infeasible _ =>
    return ⟨some first, none,
      { status := .infeasible, iterations,
        message := "No feasible solution: artificial variables remain positive." }⟩
  | .unbounded =>
    return ⟨some first, none,
      { status := .unbounded, iterations,
        message := "Phase I detected unbounded auxiliary problem (numerical breakdown)." }⟩
  | .feasible reduced =>
    let run := secondRun problem options reduced.position iterations
    let report ← secondReport problem options iterations run
    let note := if run.ending = .optimal then droppedNote reduced.dropped else ""
    return ⟨some first, some run, report.withNote note⟩

/-- Solve from the slack basis as it stands. -/
def solveSinglePhase (problem : Problem α) (options : Options α) :
    Except TableauFault (Outcome α) := do
  let run := secondRun problem options problem.start 0
  return ⟨none, some run, ← secondReport problem options 0 run⟩

/-- Solve a problem. A problem without rows has no answer, whatever its objective. -/
def solve (problem : Problem α) (options : Options α) : Except TableauFault (Answer α) := do
  if problem.constraints.isEmpty then
    return .nothingToSolve
  match problem.fault? with
  | some fault => return .rejected fault
  | none =>
    if options.twoPhase then
      return .solved (← solveTwoPhase problem options)
    else
      return .solved (← solveSinglePhase problem options)

end SimplexMethod
