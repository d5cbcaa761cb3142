import SimplexMethod.History
import SimplexMethod.Report
import SimplexMethod.Tableau.Artificial

/-!
# Events

What a solve tells while it works. Each event has a level; a reader of a log chooses the least
level to be told.
-/

namespace SimplexMethod

/-- How much an event matters, from detail to warning. -/
inductive Level where
  | debug
  | info
  | warning
deriving DecidableEq

namespace Level

/-- The rank of a level. -/
def rank : Level → Nat
  | debug => 0
  | info => 1
  | warning => 2

/-- The written form of a level. -/
def name : Level → String
  | debug => "DEBUG"
  | info => "INFO"
  | warning => "WARNING"

end Level

/-- Something worth telling. Pivots are numbered from one within their run. -/
inductive Event (α : Type) where
  | phaseOneNeeded (rows : List Nat)
  | pivoted (phase : Int) (number : Nat) (pivot : Pivot α)
  | basisRepeated (phase : Int) (basis : List Nat)
  | noPositiveEntry (phase : Int) (column : Nat)
  | stopped (phase : Int) (iterations : Nat)
  | rowsDropped (rows : List Nat)
  | artificialSumLeft (sum : α)
  | auxiliaryUnbounded
  | rejected (fault : ProblemFault)
  | nothingToSolve
  | finished (status : Status) (objectiveValue : Option α) (iterations : Int)

/-- How much an event matters. -/
def Event.level {α : Type} : Event α → Level
  | phaseOneNeeded _ => .debug
  | pivoted _ _ _ => .debug
  | basisRepeated _ _ => .warning
  | noPositiveEntry _ _ => .debug
  | stopped _ _ => .warning
  | rowsDropped _ => .info
  | artificialSumLeft _ => .info
  | auxiliaryUnbounded => .warning
  | rejected _ => .info
  | nothingToSolve => .info
  | finished _ _ _ => .info

/-- The events of the level or above. -/
def Level.select {α : Type} (level : Level) (events : List (Event α)) : List (Event α) :=
  events.filter fun event => level.rank ≤ event.level.rank

namespace Run

variable {α : Type}

/-- What is told of the pivots of a run: each pivot, and a change of rule right after the pivot
that caused it. -/
def pivotEvents (run : Run α) (phase : Int) : List (Event α) :=
  run.pivots.zipIdx.flatMap fun (pivot, index) =>
    .pivoted phase (index + 1) pivot
      :: if pivot.switched then [.basisRepeated phase pivot.after.basis] else []

/-- What is told of the end of a run. -/
def endingEvents (run : Run α) (phase : Int) : List (Event α) :=
  match run.ending with
  | .optimal => []
  | .unbounded entering => [.noPositiveEntry phase entering]
  | .stopped => [.stopped phase run.iterations]
  | .noBasicColumn => []

/-- What is told of a run. -/
def events (run : Run α) (phase : Int) : List (Event α) :=
  run.pivotEvents phase ++ run.endingEvents phase

end Run

/-- What is told of preparing a tableau: the rows that were given an artificial column. -/
def Prepared.events {α : Type} (prepared : Prepared α) : List (Event α) :=
  if prepared.lacking.isEmpty then [] else [.phaseOneNeeded prepared.lacking]

/-- What is told of taking out the artificial columns: the rows that were dropped. -/
def Reduced.events {α : Type} (reduced : Reduced α) : List (Event α) :=
  if reduced.dropped.isEmpty then [] else [.rowsDropped reduced.dropped]

end SimplexMethod
