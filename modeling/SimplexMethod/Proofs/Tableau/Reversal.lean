import Mathlib.Tactic.FieldSimp
import SimplexMethod.Proofs.Tableau.System

/-!
# Taking a pivot back

Of two pivots in one line only the later one counts. So a second pivot at the same entry changes
nothing, and a pivot at a column that was a unit column of the line restores the tableau.
-/

namespace SimplexMethod

namespace Tableau

/-- The column is one in the given line and zero in all others, the objective row included. -/
def UnitAt (t : Tableau ℚ) (row column : ℕ) : Prop :=
  ∀ i < t.height, t.entry i column = if i = row then 1 else 0

/-- What a pivot makes of a tableau: one of the same shape with a unit column at the place of the
pivot, which a second pivot there keeps, which has the same solutions if the line is a constraint
row, and from which a pivot at any former unit column of the line leads back. -/
structure PivotsTo (t : Tableau ℚ) (width row column : ℕ) (u : Tableau ℚ) : Prop where
  hasWidth : u.HasWidth width
  length_rows : u.rows.length = t.rows.length
  unitAt : u.UnitAt row column
  again : u.pivotAt row column = .ok u
  solves_iff : row < t.rows.length → ∀ x : List ℚ, u.Solves x ↔ t.Solves x
  back : ∀ former, t.UnitAt row former → u.pivotAt row former = .ok t

variable {t u : Tableau ℚ} {width row column : ℕ}

theorem UnitAt.entry_ne_zero (h : t.UnitAt row column) (hr : row < t.height) :
    t.entry row column ≠ 0 := by
  rw [h row hr, if_pos rfl]
  exact one_ne_zero

/-- Tableaux of one shape with the same entries are equal. -/
theorem eq_of_entry (ht : t.HasWidth width) (hu : u.HasWidth width)
    (hlen : t.rows.length = u.rows.length)
    (h : ∀ i < t.height, ∀ j, t.entry i j = u.entry i j) : t = u := by
  have hlines : t.lines = u.lines := by
    apply List.ext_getElem
    · rw [length_lines, length_lines, height, height, hlen]
    · intro i hi hi'
      apply eq_of_getD
      · rw [ht _ (List.getElem_mem hi), hu _ (List.getElem_mem hi')]
      · intro j
        have hentry := h i (length_lines t ▸ hi) j
        rwa [entry, entry, line, line, List.getD_eq_getElem _ _ hi,
          List.getD_eq_getElem _ _ hi'] at hentry
  apply Option.some.inj
  rw [← ofLines?_lines t, hlines, ofLines?_lines]

/-- Of two pivots in one line only the later one counts: the element of the first drops out of the
line that the second subtracts. -/
theorem pivot_pivot (h : t.HasWidth width) (hne : t.entry row column ≠ 0) {other : ℕ}
    (hother : t.entry row other ≠ 0) :
    (t.pivot row column).pivot row other = t.pivot row other := by
  have hr : row < t.height := lt_height_of_entry_ne_zero hne
  have hr' : row < (t.pivot row column).height := by simpa using hr
  have hfirst := h.pivot hr column
  have hsource : ∀ j, (t.pivot row column).entry row j / (t.pivot row column).entry row other
      = t.entry row j / t.entry row other := by
    intro j
    rw [entry_pivot h hr, entry_pivot h hr, if_pos rfl, if_pos rfl]
    exact div_div_div_cancel_right₀ hne _ _
  apply eq_of_entry (hfirst.pivot hr' other) (h.pivot hr other)
  · simp
  · intro i _ j
    rw [entry_pivot hfirst hr', hsource]
    by_cases hi : i = row
    · rw [if_pos hi, entry_pivot h hr, if_pos hi]
    · rw [if_neg hi, entry_pivot h hr, entry_pivot h hr, entry_pivot h hr, if_neg hi, if_neg hi,
        if_neg hi]
      field_simp
      ring

/-- A pivot at a unit column of the line changes nothing. -/
theorem UnitAt.pivot_eq (hunit : t.UnitAt row column) (h : t.HasWidth width)
    (hr : row < t.height) : t.pivot row column = t := by
  apply eq_of_entry (h.pivot hr column) h
  · simp
  · intro i hi j
    replace hi : i < t.height := by simpa using hi
    rw [entry_pivot h hr, hunit row hr, if_pos rfl, div_one]
    by_cases heq : i = row
    · rw [if_pos heq, heq]
    · rw [if_neg heq, hunit i hi, if_neg heq]
      ring

/-- A pivot at an entry other than zero is idempotent, keeps the solutions and can be taken back. -/
theorem exists_pivotsTo (h : t.HasWidth width) (hne : t.entry row column ≠ 0) :
    ∃ u, t.pivotAt row column = .ok u ∧ t.PivotsTo width row column u := by
  have hr : row < t.height := lt_height_of_entry_ne_zero hne
  have hc : column < width := lt_width_of_entry_ne_zero h hne
  have hafter := h.pivot hr column
  have hr' : row < (t.pivot row column).height := by simpa using hr
  refine ⟨t.pivot row column, pivotAt_eq_ok hr (h.width_eq.symm ▸ hc), ?_⟩
  exact
    { hasWidth := hafter
      length_rows := length_rows_pivot t row column
      unitAt := fun i _ => entry_pivot_self h hr hne i
      again := by
        rw [pivotAt_eq_ok hr' (hafter.width_eq.symm ▸ hc), pivot_pivot h hne hne]
      solves_iff := by
        intro hrow x
        rw [solves_iff_solvedBy, solves_iff_solvedBy]
        exact ((agrees_pivot h hrow hne).solvedBy_iff _).symm
      back := by
        intro former hunit
        have hformer := hunit.entry_ne_zero hr
        rw [pivotAt_eq_ok hr' (hafter.width_eq.symm ▸ lt_width_of_entry_ne_zero h hformer),
          pivot_pivot h hne hformer, hunit.pivot_eq h hr] }

/-- Two rows in which the first and the third column are basic. -/
def upright : Tableau ℚ where
  rows := [[1, 2, 0, 4], [0, 3, 1, 6]]
  objective := [0, -5, 0, 1]

/-- The second column takes the place of the third one, and the third one takes it back. -/
theorem pivotsTo_upright :
    ∃ u, upright.pivotAt 1 1 = .ok u ∧ u.rows = [[1, 0, -2 / 3, 0], [0, 1, 1 / 3, 2]] ∧
      u.objective = [0, 0, 5 / 3, 11] ∧ upright.PivotsTo 4 1 1 u ∧
      u.pivotAt 1 2 = .ok upright := by
  obtain ⟨u, hu, hpivots⟩ :=
    @exists_pivotsTo upright 4 1 1 (by simp [upright, HasWidth, lines]) (by decide +kernel)
  have hread : ((upright.pivotAt 1 1).toOption.map fun u => (u.rows, u.objective))
      = some ([[1, 0, -2 / 3, 0], [0, 1, 1 / 3, 2]], [0, 0, 5 / 3, 11]) := by decide +kernel
  rw [hu] at hread
  obtain ⟨hrows, hobjective⟩ := Prod.mk.inj (Option.some.inj hread)
  have hformer : upright.UnitAt 1 2 := by
    unfold UnitAt
    decide +kernel
  exact ⟨u, hu, hrows, hobjective, hpivots, hpivots.back 2 hformer⟩

end Tableau

end SimplexMethod
