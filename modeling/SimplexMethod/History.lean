import SimplexMethod.Pivoting.Run

/-!
# Histories

A history lists the pivots of one run after another. A snapshot is one pivot in it: the phase it
belongs to, its number in the whole history, and the position it led to.
-/

namespace SimplexMethod

/-- One recorded pivot of a history, which is numbered from one. -/
structure Snapshot (α : Type) where
  phase : Int
  iteration : Nat
  entering : Nat
  leaving : Nat
  position : Position α
deriving DecidableEq

/-- The snapshots of a run that follows `earlier` others. -/
def Run.snapshots {α : Type} (run : Run α) (phase : Int) (earlier : Nat) : List (Snapshot α) :=
  run.pivots.mapIdx fun index pivot =>
    { phase
      iteration := earlier + index + 1
      entering := pivot.entering
      leaving := pivot.leaving
      position := pivot.after }

@[simp] theorem Run.length_snapshots {α : Type} (run : Run α) (phase : Int) (earlier : Nat) :
    (run.snapshots phase earlier).length = run.iterations := by
  simp [snapshots, iterations]

end SimplexMethod
