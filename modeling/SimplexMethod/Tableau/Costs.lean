import SimplexMethod.Tableau.Check

/-!
# Installing an objective

A new objective row is reduced against the basis: each basic column is cleared from it with the
row in which the column is basic. A factor is read from the row as it stands at that moment. Costs
of a single entry give every column that entry.
-/

namespace SimplexMethod

variable {α : Type}

/-- Costs for the given number of columns: a single entry stands for one in each column. -/
def spread (width : Nat) : List α → List α
  | [cost] => List.replicate width cost
  | costs => costs

theorem spread_of_length {width : Nat} {costs : List α} (h : costs.length = width) :
    spread width costs = costs := by
  match costs, h with
  | [], _ => rfl
  | [cost], h => simp [spread, ← h]
  | _ :: _ :: _, _ => rfl

variable [Scalar α]

namespace Tableau

/-- Clear a column from the objective row with a line of the tableau. -/
def clearCost (t : Tableau α) (column row : Nat) : Tableau α :=
  { t with objective := cancel column (t.line row) t.objective }

/-- Clear a column inside the tableau. The line is read only if there is something to clear. -/
def clearCostAt (t : Tableau α) (column row : Nat) : Except TableauFault (Tableau α) := do
  t.checkColumn column
  if t.objective.getD column 0 != 0 then
    t.checkLine row
  return t.clearCost column row

@[simp] theorem rows_clearCost (t : Tableau α) (column row : Nat) :
    (t.clearCost column row).rows = t.rows := rfl

end Tableau

namespace Position

/-- Replace the objective row by the given costs, reduced against the basis. -/
def install (p : Position α) (costs : List α) : Tableau α :=
  p.basis.zipIdx.foldl (fun t (column, row) => t.clearCost column row)
    { p.tableau with objective := spread p.tableau.width costs }

/-- Install costs of the right length, or of a single entry, for a basis inside the tableau. -/
def installAt (p : Position α) (costs : List α) : Except TableauFault (Tableau α) := do
  let objective := spread p.tableau.width costs
  if objective.length ≠ p.tableau.width then
    throw (.rowLength objective.length p.tableau.width)
  p.basis.zipIdx.foldlM (fun t (column, row) => t.clearCostAt column row)
    { p.tableau with objective }

end Position

end SimplexMethod
