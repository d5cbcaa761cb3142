import SimplexMethod.Options
import SimplexMethod.Tableau.Check

/-!
# Choosing a pivot

A column may enter if its cost is below the negated tolerance; a row may leave if its entry in the
entering column exceeds the tolerance. Among candidates the first one that no later one beats is
chosen, so an arithmetic whose comparisons fail keeps the earlier candidate.
-/

namespace SimplexMethod

/-- The first item, replaced whenever a later item is less than the one held. -/
def firstLeast {β : Type} (less : β → β → Bool) : List β → Option β
  | [] => none
  | first :: rest =>
    some (rest.foldl (fun held next => if less next held then next else held) first)

@[simp] theorem firstLeast_eq_none_iff {β : Type} {less : β → β → Bool} {items : List β} :
    firstLeast less items = none ↔ items = [] := by
  cases items <;> simp [firstLeast]

private theorem foldl_held_mem {β : Type} (less : β → β → Bool) (held : β) (items : List β) :
    items.foldl (fun held next => if less next held then next else held) held ∈ held :: items := by
  induction items generalizing held with
  | nil => simp
  | cons next items ih =>
    rw [List.foldl_cons]
    split
    · exact List.mem_cons_of_mem _ (ih next)
    · rcases List.mem_cons.mp (ih held) with h | h
      · rw [h]
        exact List.mem_cons_self
      · exact List.mem_cons_of_mem _ (List.mem_cons_of_mem _ h)

theorem firstLeast_mem {β : Type} {less : β → β → Bool} {items : List β} {item : β}
    (h : firstLeast less items = some item) : item ∈ items := by
  cases items with
  | nil => simp [firstLeast] at h
  | cons first rest =>
    simp only [firstLeast, Option.some.injEq] at h
    exact h ▸ foldl_held_mem less first rest

variable {α : Type} [Scalar α]

/-- The columns that may enter, in order. The last entry of the row is not a column. -/
def enteringCandidates (costs : List α) (barred : List Nat) (tolerance : α) : List Nat :=
  (List.range (costs.length - 1)).filter fun j => j ∉ barred ∧ costs.getD j 0 < -tolerance

theorem mem_enteringCandidates {costs : List α} {barred : List Nat} {tolerance : α} {j : Nat} :
    j ∈ enteringCandidates costs barred tolerance ↔
      j < costs.length - 1 ∧ j ∉ barred ∧ costs.getD j 0 < -tolerance := by
  simp [enteringCandidates]

/-- The entering column: the first candidate, or the first of least cost. -/
def chooseEntering (costs : List α) (barred : List Nat) (rule : PivotRule) (tolerance : α) :
    Option Nat :=
  let candidates := enteringCandidates costs barred tolerance
  match rule with
  | .bland => candidates.head?
  | .dantzig => firstLeast (fun i j => costs.getD i 0 < costs.getD j 0) candidates

theorem chooseEntering_mem {costs : List α} {barred : List Nat} {rule : PivotRule}
    {tolerance : α} {j : Nat} (h : chooseEntering costs barred rule tolerance = some j) :
    j ∈ enteringCandidates costs barred tolerance := by
  cases rule with
  | dantzig => exact firstLeast_mem h
  | bland => exact List.mem_of_head? h

theorem chooseEntering_eq_none_iff {costs : List α} {barred : List Nat} {rule : PivotRule}
    {tolerance : α} :
    chooseEntering costs barred rule tolerance = none ↔
      enteringCandidates costs barred tolerance = [] := by
  cases rule with
  | dantzig => exact firstLeast_eq_none_iff
  | bland => exact List.head?_eq_none_iff

/-- A row that may leave, and how far its basic column lets the entering column grow. -/
structure Ratio (α : Type) where
  row : Nat
  value : α

namespace Ratio

/-- Rank by value alone. -/
def precedes (a b : Ratio α) : Bool :=
  a.value < b.value

/-- Rank by value, and equal values by the basic column of the row. -/
def precedesIn (basis : List Nat) (a b : Ratio α) : Bool :=
  if a.value == b.value then basis.getD a.row 0 < basis.getD b.row 0 else a.precedes b

end Ratio

namespace Tableau

/-- The rows that may leave for the column, in order. -/
def ratios (t : Tableau α) (column : Nat) (tolerance : α) : List (Ratio α) :=
  t.rows.zipIdx.filterMap fun (line, row) =>
    if tolerance < line.getD column 0 then some ⟨row, rhs line / line.getD column 0⟩ else none

/-- The leaving row: the first of least ratio, with ties broken as the rule says. -/
def chooseLeaving (t : Tableau α) (column : Nat) (basis : List Nat) (rule : PivotRule)
    (tolerance : α) : Option Nat :=
  let ratios := t.ratios column tolerance
  (match rule with
  | .bland => firstLeast (Ratio.precedesIn basis) ratios
  | .dantzig => firstLeast Ratio.precedes ratios).map Ratio.row

theorem chooseLeaving_mem {t : Tableau α} {column : Nat} {basis : List Nat} {rule : PivotRule}
    {tolerance : α} {row : Nat} (h : t.chooseLeaving column basis rule tolerance = some row) :
    ∃ ratio ∈ t.ratios column tolerance, ratio.row = row := by
  cases rule with
  | dantzig =>
    obtain ⟨ratio, hr, rfl⟩ := Option.map_eq_some_iff.mp h
    exact ⟨ratio, firstLeast_mem hr, rfl⟩
  | bland =>
    obtain ⟨ratio, hr, rfl⟩ := Option.map_eq_some_iff.mp h
    exact ⟨ratio, firstLeast_mem hr, rfl⟩

theorem chooseLeaving_eq_none_iff {t : Tableau α} {column : Nat} {basis : List Nat}
    {rule : PivotRule} {tolerance : α} :
    t.chooseLeaving column basis rule tolerance = none ↔ t.ratios column tolerance = [] := by
  cases rule <;> simp [chooseLeaving]

theorem row_lt_of_mem_ratios {t : Tableau α} {column : Nat} {tolerance : α} {ratio : Ratio α}
    (h : ratio ∈ t.ratios column tolerance) : ratio.row < t.rows.length := by
  obtain ⟨⟨line, row⟩, hl, hr⟩ := List.mem_filterMap.mp h
  dsimp only at hr
  split at hr
  · simp only [Option.some.injEq] at hr
    have hrow : row < t.rows.length := by simpa using List.snd_lt_add_of_mem_zipIdx hl
    simpa [← hr] using hrow
  · simp at hr

/-- Bland's rule ranks a row that has no basic column. -/
def ranksBeyond (t : Tableau α) (column : Nat) (basis : List Nat) (rule : PivotRule)
    (tolerance : α) : Bool :=
  rule = .bland && (t.ratios column tolerance).any fun ratio => basis.length ≤ ratio.row

theorem ranksBeyond_eq_false {t : Tableau α} {basis : List Nat}
    (h : t.rows.length ≤ basis.length) (column : Nat) (rule : PivotRule) (tolerance : α) :
    t.ranksBeyond column basis rule tolerance = false := by
  have hall : ∀ ratio ∈ t.ratios column tolerance, ratio.row < basis.length :=
    fun _ hr => Nat.lt_of_lt_of_le (row_lt_of_mem_ratios hr) h
  simpa [ranksBeyond] using fun _ => hall

/-- The leaving row for a column inside the tableau. Without constraint rows no column is read, and
the basis is read by Bland's rule only. -/
def chooseLeavingAt (t : Tableau α) (column : Nat) (basis : List Nat) (rule : PivotRule)
    (tolerance : α) : Except TableauFault (Option Nat) := do
  unless t.rows.isEmpty do
    t.checkColumn column
  if t.ranksBeyond column basis rule tolerance then
    throw .noBasicColumn
  return t.chooseLeaving column basis rule tolerance

end Tableau

end SimplexMethod
