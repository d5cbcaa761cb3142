import SimplexMethod.Scalar

/-!
# Tableaux

A tableau is a list of constraint rows and an objective row, all of one length; the last entry of
a row is its right-hand side. The *lines* of a tableau are the constraint rows followed by the
objective row, numbered from zero, so that one rule serves both kinds of row.

Every operation here is total: outside the tableau a line is empty and an entry is zero.
-/

namespace SimplexMethod

/-- Constraint rows and an objective row; the last entry of each is its right-hand side. -/
structure Tableau (α : Type) where
  rows : List (List α)
  objective : List α
deriving DecidableEq

/-- A tableau and, for each constraint row, the column that is basic in it. -/
structure Position (α : Type) where
  tableau : Tableau α
  basis : List Nat
deriving DecidableEq

namespace Tableau

variable {α : Type}

/-- The constraint rows and the objective row. -/
def lines (t : Tableau α) : List (List α) :=
  t.rows ++ [t.objective]

/-- The tableau with the given lines, the last of which is the objective row. -/
def ofLines? (lines : List (List α)) : Option (Tableau α) :=
  lines.getLast?.map fun objective => ⟨lines.dropLast, objective⟩

/-- The number of lines. -/
def height (t : Tableau α) : Nat :=
  t.rows.length + 1

/-- The number of columns, the right-hand side included. -/
def width (t : Tableau α) : Nat :=
  t.objective.length

/-- The line at a position; empty past the objective row. -/
def line (t : Tableau α) (i : Nat) : List α :=
  t.lines.getD i []

/-- Change every line by a rule that sees its position. -/
def mapLines (f : Nat → List α → List α) (t : Tableau α) : Tableau α :=
  ⟨t.rows.mapIdx f, f t.rows.length t.objective⟩

@[simp] theorem length_lines (t : Tableau α) : t.lines.length = t.height := by
  simp [lines, height]

@[simp] theorem ofLines?_lines (t : Tableau α) : ofLines? t.lines = some t := by
  simp [ofLines?, lines]

theorem line_of_lt (t : Tableau α) {i : Nat} (h : i < t.rows.length) : t.line i = t.rows[i] := by
  simp [line, lines, List.getD, List.getElem?_append_left h, h]

@[simp] theorem line_length (t : Tableau α) : t.line t.rows.length = t.objective := by
  simp [line, lines, List.getD]

@[simp] theorem height_mapLines (f : Nat → List α → List α) (t : Tableau α) :
    (t.mapLines f).height = t.height := by
  simp [mapLines, height]

@[simp] theorem lines_mapLines (f : Nat → List α → List α) (t : Tableau α) :
    (t.mapLines f).lines = t.lines.mapIdx f := by
  simp [lines, mapLines]

theorem line_mapLines (f : Nat → List α → List α) (t : Tableau α) {i : Nat}
    (h : i < t.height) : (t.mapLines f).line i = f i (t.line i) := by
  have hi : i < t.lines.length := by simpa using h
  simp [line, List.getD, List.getElem?_eq_getElem hi]

end Tableau

variable {α : Type} [Scalar α]

/-- The last entry of a row. -/
def rhs (row : List α) : α :=
  row.getLastD 0

@[simp] theorem rhs_append (row : List α) (b : α) : rhs (row ++ [b]) = b := by
  simp [rhs]

/-- Subtract a multiple of the source from the target, entry by entry. -/
def subtractMultiple (factor : α) (source target : List α) : List α :=
  List.zipWith (fun a b => a - factor * b) target source

/-- Subtract from the target the multiple of the source that clears the target's entry in the
column. A zero entry leaves the target as it is. -/
def cancel (column : Nat) (source target : List α) : List α :=
  if target.getD column 0 != 0 then
    subtractMultiple (target.getD column 0) source target
  else
    target

theorem length_cancel {column : Nat} {source target : List α}
    (h : source.length = target.length) :
    (cancel column source target).length = target.length := by
  unfold cancel
  split <;> simp [subtractMultiple, h]

/-- Divide every entry of a row. -/
def divideBy (element : α) (row : List α) : List α :=
  row.map (· / element)

namespace Tableau

/-- The entry at a position; zero outside. -/
def entry (t : Tableau α) (i j : Nat) : α :=
  (t.line i).getD j 0

/-- Divide the line by its entry in the column, then clear the column in every other line. -/
def pivot (t : Tableau α) (row column : Nat) : Tableau α :=
  let source := divideBy (t.entry row column) (t.line row)
  t.mapLines fun i line => if i = row then source else cancel column source line

theorem line_pivot (t : Tableau α) {row i : Nat} (column : Nat) (h : i < t.height) :
    (t.pivot row column).line i =
      if i = row then divideBy (t.entry row column) (t.line row)
      else cancel column (divideBy (t.entry row column) (t.line row)) (t.line i) := by
  simp only [pivot]
  rw [line_mapLines _ _ h]

@[simp] theorem height_pivot (t : Tableau α) (row column : Nat) :
    (t.pivot row column).height = t.height := by
  simp [pivot]

end Tableau

end SimplexMethod
