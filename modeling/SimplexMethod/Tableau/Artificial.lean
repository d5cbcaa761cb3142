import SimplexMethod.Tableau.Check

/-!
# Artificial columns

A row is ready for a first basis when its own basic column has a positive entry and its right-hand
side is not negative. Rows that are not ready, and do not become so by a change of sign, are given
an artificial column each; the objective then is the sum of the artificial columns.
`Position.prepare` sets this up and `Position.removeArtificial` undoes it, dropping the rows that
turn out to say nothing.
-/

namespace SimplexMethod

/-- What a row needs before its basic column can start in the basis. -/
inductive RowStart where
  | ready
  | negated
  | lacking
  | negatedLacking
deriving DecidableEq

namespace RowStart

/-- The row changes its sign. -/
def negates : RowStart → Bool
  | ready => false
  | negated => true
  | lacking => false
  | negatedLacking => true

/-- The row is given an artificial column. -/
def lacks : RowStart → Bool
  | ready => false
  | negated => false
  | lacking => true
  | negatedLacking => true

end RowStart

variable {α : Type} [Scalar α]

/-- Judge a row by its entry in its basic column and by its right-hand side. -/
def rowStart (tolerance slack bound : α) : RowStart :=
  if 0 < slack ∧ -tolerance ≤ bound then .ready
  else if slack < 0 ∧ bound ≤ tolerance then .negated
  else if bound < 0 then .negatedLacking
  else .lacking

/-- A position with its artificial columns and the rows that they were made for, in order. -/
structure Prepared (α : Type) where
  position : Position α
  lacking : List Nat
  artificial : List Nat
deriving DecidableEq

/-- A position without artificial columns, and the rows that were dropped on the way. -/
structure Reduced (α : Type) where
  position : Position α
  dropped : List Nat
deriving DecidableEq

/-- Insert entries before the right-hand side. -/
def insertBeforeRhs (entries row : List α) : List α :=
  row.dropLast ++ entries ++ [rhs row]

/-- The first `width` entries of a row and its right-hand side. -/
def cutTo (width : Nat) (row : List α) : List α :=
  row.take width ++ [rhs row]

namespace Tableau

/-- Append a unit column for each given row. The new objective is the sum of the new columns,
with the given rows subtracted in order. -/
def withArtificial (t : Tableau α) (lacking : List Nat) : Tableau α :=
  let rows := t.rows.mapIdx fun i row =>
    insertBeforeRhs (lacking.map fun r => if r = i then 1 else 0) row
  let sum := List.replicate (t.width - 1) 0 ++ lacking.map (fun _ => 1) ++ [0]
  lacking.foldl
    (fun t row => { t with objective := List.zipWith (· - ·) t.objective (t.line row) })
    { rows, objective := sum }

/-- The lines at the given positions, then the objective row, all cut to their first `width`
entries and their right-hand side. -/
def restrict (t : Tableau α) (kept : List Nat) (width : Nat) : Tableau α :=
  ⟨kept.map fun row => cutTo width (t.line row), cutTo width t.objective⟩

/-- Restrict to lines and columns inside the tableau; lines are checked before columns. -/
def restrictAt (t : Tableau α) (kept : List Nat) (width : Nat) :
    Except TableauFault (Tableau α) := do
  kept.forM t.checkLine
  (List.range width).forM t.checkColumn
  return t.restrict kept width

/-- The first of the first `width` columns in which the line's entry exceeds the tolerance in
magnitude. -/
def exchange? (t : Tableau α) (row width : Nat) (tolerance : α) : Option Nat :=
  (List.range width).find? fun column => tolerance < Scalar.magnitude (t.entry row column)

end Tableau

namespace Position

/-- Judge the line in which the column is basic. -/
def startOf (p : Position α) (tolerance : α) (column row : Nat) : RowStart :=
  rowStart tolerance (p.tableau.entry row column) (rhs (p.tableau.line row))

/-- The tableau after the changes of sign. -/
def signed (p : Position α) (tolerance : α) : Tableau α :=
  p.tableau.mapLines fun row line =>
    match p.basis[row]? with
    | some column => if (p.startOf tolerance column row).negates then line.map (- ·) else line
    | none => line

/-- The rows that are given an artificial column. -/
def lackingRows (p : Position α) (tolerance : α) : List Nat :=
  p.basis.zipIdx.filterMap fun (column, row) =>
    if (p.startOf tolerance column row).lacks then some row else none

/-- The basis with artificial columns, which are numbered from `first` on, for the given rows. -/
def artificialBasis (p : Position α) (lacking : List Nat) (first : Nat) : List Nat :=
  p.basis.mapIdx fun row column =>
    match lacking.idxOf? row with
    | some offset => first + offset
    | none => column

/-- Bring every row into a state from which its basic column can start: change signs and append
artificial columns where needed. Without lacking rows the tableau keeps its width and its
objective row. -/
def prepare (p : Position α) (tolerance : α) : Prepared α :=
  let lacking := p.lackingRows tolerance
  if lacking.isEmpty then
    { position := ⟨p.signed tolerance, p.basis⟩, lacking := [], artificial := [] }
  else
    let first := p.tableau.width - 1
    { position :=
        ⟨(p.signed tolerance).withArtificial lacking, p.artificialBasis lacking first⟩
      lacking
      artificial := List.range' first lacking.length }

/-- Prepare a position whose basic columns lie inside the tableau. -/
def prepareAt (p : Position α) (tolerance : α) : Except TableauFault (Prepared α) := do
  p.basis.zipIdx.forM fun (column, row) => p.tableau.checkEntry row column
  return p.prepare tolerance

end Position

/-- The largest magnitude among one and the right-hand sides of the constraint rows. -/
def Prepared.scale (prepared : Prepared α) : α :=
  prepared.position.tableau.rows.foldl
    (fun largest row =>
      if largest < Scalar.magnitude (rhs row) then Scalar.magnitude (rhs row) else largest)
    1

namespace Reduced

/-- Free one row of its artificial column: exchange it for a column among the first `width`, or
mark the row for dropping if there is none to exchange it for. -/
def clearRow (artificial : List Nat) (width : Nat) (tolerance : α) (state : Reduced α)
    (row : Nat) : Reduced α :=
  if state.position.basis.getD row 0 ∈ artificial then
    match state.position.tableau.exchange? row width tolerance with
    | none => { state with dropped := state.dropped ++ [row] }
    | some column =>
      { state with
        position :=
          ⟨state.position.tableau.pivot row column, state.position.basis.set row column⟩ }
  else
    state

/-- Free a row of which the first `width` entries lie inside the tableau. -/
def clearRowAt (artificial : List Nat) (width : Nat) (tolerance : α) (state : Reduced α)
    (row : Nat) : Except TableauFault (Reduced α) := do
  if state.position.basis.getD row 0 ∈ artificial then
    (List.range width).forM (state.position.tableau.checkEntry row)
  return clearRow artificial width tolerance state row

/-- The rows that are not marked for dropping. -/
def kept (state : Reduced α) : List Nat :=
  (List.range state.position.basis.length).filter (· ∉ state.dropped)

/-- The basis in the rows that are not marked for dropping. -/
def keptBasis (state : Reduced α) : List Nat :=
  state.kept.map fun row => state.position.basis.getD row 0

end Reduced

namespace Position

/-- Take the artificial columns, which are those from `width` on, out of the basis and out of the
tableau. Rows whose artificial column cannot be exchanged are dropped. -/
def removeArtificial (p : Position α) (artificial : List Nat) (width : Nat) (tolerance : α) :
    Reduced α :=
  let cleared := (List.range p.basis.length).foldl
    (Reduced.clearRow artificial width tolerance) ⟨p, []⟩
  ⟨⟨cleared.position.tableau.restrict cleared.kept width, cleared.keptBasis⟩, cleared.dropped⟩

/-- Take out at least one artificial column; the least one is the first. All lines and columns
that are read lie inside the tableau. -/
def removeArtificialAt (p : Position α) (artificial : List Nat) (tolerance : α) :
    Except TableauFault (Reduced α) := do
  match artificial.min? with
  | none => .error .noArtificialColumns
  | some width =>
    let cleared ← (List.range p.basis.length).foldlM
      (Reduced.clearRowAt artificial width tolerance) ⟨p, []⟩
    let tableau ← cleared.position.tableau.restrictAt cleared.kept width
    return ⟨⟨tableau, cleared.keptBasis⟩, cleared.dropped⟩

end Position

end SimplexMethod
