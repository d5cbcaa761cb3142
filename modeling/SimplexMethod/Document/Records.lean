import SimplexMethod.Options
import SimplexMethod.Report

/-!
# Records

The written forms of the choices, and snapshots and results as documents state them. Constraints,
objectives, options and reports are read as the library's own types; a snapshot has a record type
of its own, since a document may state any numbers in it.
-/

namespace SimplexMethod

/-- All relations, in the order in which they are listed to a reader. -/
def Relation.all : List Relation := [.atMost, .atLeast, .equal]

/-- The written form of a relation. -/
def Relation.name : Relation → String
  | .atMost => "<="
  | .atLeast => ">="
  | .equal => "=="

/-- Both senses, in the order in which they are listed to a reader. -/
def Sense.all : List Sense := [.minimise, .maximise]

/-- The written form of a sense. -/
def Sense.name : Sense → String
  | .minimise => "min"
  | .maximise => "max"

/-- Both rules, in the order in which they are listed to a reader. -/
def PivotRule.all : List PivotRule := [.dantzig, .bland]

/-- The written form of a rule. -/
def PivotRule.name : PivotRule → String
  | .dantzig => "dantzig"
  | .bland => "bland"

/-- All verdicts, in the order in which they are listed to a reader. -/
def Status.all : List Status :=
  [.optimal, .optimalWithAlternatives, .unbounded, .infeasible, .iterationLimit, .invalid]

namespace Document

/-- A snapshot as a document states it. -/
structure SnapshotRecord where
  table : List (List Float)
  basis : List Int
  phase : Int := 2
  entering : Option Int := none
  leaving : Option Int := none
  iteration : Int := 0

/-- A result as a document states it. -/
structure ResultRecord where
  history : List SnapshotRecord := []
  report : Report Float

end Document

end SimplexMethod
