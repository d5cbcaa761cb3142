import SimplexMethod.Document.Reader
import SimplexMethod.Fault
import SimplexMethod.Solve

/-!
# Sessions

A session takes the method apart: each command is one step of it, on a state that is kept from one
command to the next. A command that fails leaves the state as it was. A solve is a session that is
given its steps in order.
-/

namespace SimplexMethod

/-- The state between commands: where the method stands, the columns it must not enter, the
artificial columns, the recorded pivots, and what the problem asked for. -/
structure Session (α : Type) where
  position : Position α := ⟨⟨[], []⟩, []⟩
  barred : List Nat := []
  artificial : List Nat := []
  history : List (Snapshot α) := []
  dimension : Nat := 0
  sense : Sense := .maximise
  costs : List α := []

/-- One step of the method. -/
inductive Command (α : Type) [Scalar α] where
  | build (problem : Problem α)
  | prepare (tolerance : α)
  | run (phase : Int) (options : Options α) (budget : Nat)
  | remove (tolerance : α)
  | install (costs : Option (List α))
  | pivot (row column : Nat)
  | report (tolerance : α)

/-- What a command answers besides the state it leaves. -/
inductive Reply (α : Type) where
  | built
  | prepared
  | ran (run : Run α) (snapshots : List (Snapshot α))
  | removed (dropped : List Nat)
  | installed
  | pivoted
  | reported (report : Report α)

namespace Run

variable {α : Type}

/-- The snapshots of a run. It is refused if there are any and their phase is neither one nor two,
and then if it broke off. -/
def record (run : Run α) (phase : Int) (earlier : Nat) : Except Fault (List (Snapshot α)) :=
  match run.pivots, (Document.readPhase (.int phase)).under (.field "phase"), run.ending with
  | _ :: _, .refused complaints, _ => .error (.document ⟨"TableauSnapshot", complaints⟩)
  | _, _, .noBasicColumn => .error (.tableau .noBasicColumn)
  | _, _, _ => .ok (run.snapshots phase earlier)

/-- What is told of a run while it is recorded: nothing after the first pivot if that cannot be. -/
def recordEvents (run : Run α) (phase : Int) (earlier : Nat) : List (Event α) :=
  match run.record phase earlier with
  | .error (.document _) => (run.events phase).take 1
  | _ => run.events phase

end Run

variable {α : Type} [Scalar α]

namespace Session

/-- Start over with the tableau of a problem. The recorded pivots and artificial columns stay. -/
def build (session : Session α) (problem : Problem α) : Except ProblemFault (Session α) := do
  let position ← problem.tableau
  return { session with
    position
    barred := problem.idleColumns
    dimension := problem.dimension
    sense := problem.objective.sense
    costs := position.tableau.objective }

/-- Replace the basic column of a row by pivoting. -/
def pivot (session : Session α) (row column : Nat) : Except TableauFault (Session α) := do
  let tableau ← session.position.tableau.pivotAt row column
  if session.position.basis.length ≤ row then
    throw .noBasicColumnToReplace
  return { session with position := ⟨tableau, session.position.basis.set row column⟩ }

/-- Obey a command. -/
def obey (session : Session α) : Command α → Except Fault (Reply α × Session α)
  | .build problem => do
    return (.built, ← Fault.ofProblem (session.build problem))
  | .prepare tolerance => do
    let prepared ← Fault.ofTableau (session.position.prepareAt tolerance)
    return (.prepared,
      { session with position := prepared.position, artificial := prepared.artificial })
  | .run phase options budget => do
    let run := session.position.run options session.barred budget
    let snapshots ← run.record phase session.history.length
    return (.ran run snapshots,
      { session with position := run.last, history := session.history ++ snapshots })
  | .remove tolerance => do
    let reduced ← Fault.ofTableau (session.position.removeArtificialAt session.artificial tolerance)
    return (.removed reduced.dropped, { session with position := reduced.position })
  | .install costs => do
    let tableau ← Fault.ofTableau (session.position.installAt (costs.getD session.costs))
    return (.installed, { session with position := ⟨tableau, session.position.basis⟩ })
  | .pivot row column => do
    return (.pivoted, ← Fault.ofTableau (session.pivot row column))
  | .report tolerance => do
    let report ← Fault.ofTableau (session.position.reportAt session.dimension session.sense
      session.history.length session.barred tolerance)
    return (.reported report, session)

/-- What is told while a command is obeyed, also by one that fails in the end. -/
def events (session : Session α) : Command α → List (Event α)
  | .prepare tolerance =>
    match session.position.prepareAt tolerance with
    | .ok prepared => prepared.events
    | .error _ => []
  | .run phase options budget =>
    (session.position.run options session.barred budget).recordEvents phase session.history.length
  | .remove tolerance =>
    match session.position.removeArtificialAt session.artificial tolerance with
    | .ok reduced => reduced.events
    | .error _ => []
  | _ => []

end Session

end SimplexMethod
