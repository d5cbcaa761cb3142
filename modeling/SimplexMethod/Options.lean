import SimplexMethod.Scalar

/-!
# Options of a solve
-/

namespace SimplexMethod

/-- How the entering and the leaving column are chosen: by the steepest cost and the smallest
ratio alone, or with ties and candidates ranked by column number. -/
inductive PivotRule where
  | dantzig
  | bland
deriving DecidableEq

/-- The choices open to a caller. The iteration limit counts the pivots of both phases. -/
structure Options (α : Type) [Scalar α] where
  maxIterations : Nat := 10000
  tolerance : α := 1e-9
  rule : PivotRule := .dantzig
  twoPhase : Bool := true
  cycleGuard : Bool := true

end SimplexMethod
