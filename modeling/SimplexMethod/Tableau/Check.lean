import SimplexMethod.Tableau.Basic

/-!
# Checked access

The operations on tableaux are total. Their checked forms, whose names end in `At`, refuse what
lies outside a tableau instead of reading a default; inside, both forms agree. `TableauFault` holds
what a check can find.
-/

namespace SimplexMethod

/-- Why an operation on a position is refused: a place outside the tableau, where axis zero counts
lines and axis one columns, a row of costs of the wrong length, no artificial columns to take out,
or a row without a basic column where one is read or replaced. -/
inductive TableauFault where
  | outOfBounds (index axis size : Nat)
  | rowLength (found expected : Nat)
  | noArtificialColumns
  | noBasicColumn
  | noBasicColumnToReplace
deriving DecidableEq

/-- The wording of a refusal. -/
def TableauFault.message : TableauFault → String
  | .outOfBounds index axis size =>
    s!"index {index} is out of bounds for axis {axis} with size {size}"
  | .rowLength found expected =>
    s!"could not broadcast input array from shape ({found},) into shape ({expected},)"
  | .noArtificialColumns => "min() arg is an empty sequence"
  | .noBasicColumn => "list index out of range"
  | .noBasicColumnToReplace => "list assignment index out of range"

section Steps

variable {ε σ β : Type}

/-- Checks in a row succeed when each one does. -/
theorem forM_eq_ok {check : β → Except ε Unit} {items : List β}
    (h : ∀ item ∈ items, check item = .ok ()) : items.forM check = .ok () := by
  induction items with
  | nil => rfl
  | cons item items ih =>
    change (check item >>= fun _ => items.forM check) = .ok ()
    rw [h item List.mem_cons_self]
    exact ih fun i hi => h i (List.mem_cons_of_mem _ hi)

/-- Checked steps in a row agree with unchecked ones as long as an invariant of the unchecked ones
makes each check succeed. -/
theorem foldlM_eq_ok {checked : σ → β → Except ε σ} {step : σ → β → σ} {items : List β}
    (invariant : σ → Prop) {state : σ} (start : invariant state)
    (keeps : ∀ s, ∀ item ∈ items, invariant s → invariant (step s item))
    (agrees : ∀ s, ∀ item ∈ items, invariant s → checked s item = .ok (step s item)) :
    items.foldlM checked state = .ok (items.foldl step state) := by
  induction items generalizing state with
  | nil => rfl
  | cons item items ih =>
    rw [List.foldlM_cons, agrees state item List.mem_cons_self start]
    exact ih (keeps state item List.mem_cons_self start)
      (fun s i hi => keeps s i (List.mem_cons_of_mem _ hi))
      (fun s i hi => agrees s i (List.mem_cons_of_mem _ hi))

end Steps

variable {α : Type}

namespace Tableau

/-- Refuse a line number past the objective row. -/
def checkLine (t : Tableau α) (row : Nat) : Except TableauFault Unit :=
  if t.height ≤ row then .error (.outOfBounds row 0 t.height) else .ok ()

/-- Refuse a column number past the right-hand side. -/
def checkColumn (t : Tableau α) (column : Nat) : Except TableauFault Unit :=
  if t.width ≤ column then .error (.outOfBounds column 1 t.width) else .ok ()

/-- Refuse a position outside the tableau, its line first. -/
def checkEntry (t : Tableau α) (row column : Nat) : Except TableauFault Unit := do
  t.checkLine row
  t.checkColumn column

theorem checkLine_eq_ok {t : Tableau α} {row : Nat} (h : row < t.height) :
    t.checkLine row = .ok () :=
  if_neg (Nat.not_le.mpr h)

theorem checkColumn_eq_ok {t : Tableau α} {column : Nat} (h : column < t.width) :
    t.checkColumn column = .ok () :=
  if_neg (Nat.not_le.mpr h)

theorem checkEntry_eq_ok {t : Tableau α} {row column : Nat} (hr : row < t.height)
    (hc : column < t.width) : t.checkEntry row column = .ok () := by
  rw [checkEntry, checkLine_eq_ok hr, checkColumn_eq_ok hc]
  rfl

variable [Scalar α]

/-- Pivot at a position inside the tableau. -/
def pivotAt (t : Tableau α) (row column : Nat) : Except TableauFault (Tableau α) := do
  t.checkEntry row column
  return t.pivot row column

theorem pivotAt_eq_ok {t : Tableau α} {row column : Nat} (hr : row < t.height)
    (hc : column < t.width) : t.pivotAt row column = .ok (t.pivot row column) := by
  rw [pivotAt, checkEntry_eq_ok hr hc]
  rfl

end Tableau

end SimplexMethod
