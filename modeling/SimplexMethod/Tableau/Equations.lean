import SimplexMethod.Tableau.Basic

/-!
# Tableaux as linear systems

The meaning of a tableau, apart from any way of changing it: the equations its constraint rows
state, the points that solve them, and when a list of columns is basic for it.
-/

namespace SimplexMethod

variable {α : Type} [Scalar α]

/-- The linear form of a row at a point with one entry for each column but the last. -/
def rowForm (row x : List α) : α :=
  dot row.dropLast x

namespace Tableau

/-- The point satisfies the equation of every constraint row. -/
def Solves (t : Tableau α) (x : List α) : Prop :=
  ∀ row ∈ t.rows, rowForm row x = rhs row

/-- Every line has the given number of columns. -/
def HasWidth (t : Tableau α) (width : Nat) : Prop :=
  ∀ line ∈ t.lines, line.length = width

end Tableau

namespace Position

/-- The columns are basic in the constraint rows: one for each row, pairwise distinct, and unit
vectors apart from the objective row. -/
structure BasicInRows (p : Position α) : Prop where
  length_eq : p.basis.length = p.tableau.rows.length
  nodup : p.basis.Nodup
  lt_width : ∀ column ∈ p.basis, column + 1 < p.tableau.width
  unit : ∀ i j (hi : i < p.tableau.rows.length) (hj : j < p.basis.length),
    p.tableau.rows[i].getD p.basis[j] 0 = if i = j then 1 else 0

/-- The columns are basic in the constraint rows and cleared from the objective row. -/
structure Canonical (p : Position α) : Prop extends BasicInRows p where
  cleared : ∀ column ∈ p.basis, p.tableau.objective.getD column 0 = 0

end Position

end SimplexMethod
