import SimplexMethod.Proofs.Phases.Preparation
import SimplexMethod.Proofs.Pivoting.Scaling
import SimplexMethod.Proofs.Tableau.Discerned

/-!
# Scaled costs between the phases

The preparation judges a position by its constraint rows. If it appends artificial columns, it
replaces the objective row, so scaled costs leave no trace in the first phase; if not, they stay.
Costs that are installed after the first phase are scaled if they were scaled before, and the
report of a terminal position differs in the value alone.
-/

namespace SimplexMethod

variable {factor : ℚ}

namespace Tableau

variable {t : Tableau ℚ}

/-- Artificial columns replace the objective row. -/
theorem withArtificial_scaled (t : Tableau ℚ) (factor : ℚ) (lacking : List ℕ) :
    (t.scaled factor).withArtificial lacking = t.withArtificial lacking := by
  have hwidth : (t.scaled factor).width = t.width := length_scaleBy factor t.objective
  rw [withArtificial_eq, extended, hwidth, withArtificial_eq]
  rfl

theorem clearCost_scaled (hne : factor ≠ 0) {row : ℕ} (hr : row < t.rows.length) (column : ℕ) :
    (t.scaled factor).clearCost column row = (t.clearCost column row).scaled factor := by
  rw [clearCost, line_scaled hr, clearCost, scaled, scaled, cancel_scaleBy hne]

theorem foldl_clearCost_scaled (hne : factor ≠ 0) {places : List (ℕ × ℕ)}
    (hplaces : ∀ place ∈ places, place.2 < t.rows.length) :
    places.foldl (fun t place => t.clearCost place.1 place.2) (t.scaled factor)
      = (places.foldl (fun t place => t.clearCost place.1 place.2) t).scaled factor := by
  induction places generalizing t with
  | nil => rfl
  | cons place places ih =>
    rw [List.foldl_cons, List.foldl_cons, clearCost_scaled hne (hplaces _ List.mem_cons_self)]
    exact ih fun other hother => hplaces other (List.mem_cons_of_mem _ hother)

end Tableau

namespace Position

variable {p : Position ℚ} {width : ℕ}

theorem Framed.scaled (h : p.Framed width) (factor : ℚ) : (p.scaled factor).Framed width :=
  ⟨h.hasWidth.scaled factor, h.length_basis, h.lt_width⟩

section Preparation

theorem startOf_scaled (factor tolerance : ℚ) (column : ℕ) {row : ℕ}
    (hr : row < p.tableau.rows.length) :
    (p.scaled factor).startOf tolerance column row = p.startOf tolerance column row := by
  rw [startOf, startOf, Position.scaled, Tableau.entry_scaled hr, Tableau.line_scaled hr]

variable (h : p.Framed width)

include h

theorem lackingRows_scaled (factor tolerance : ℚ) :
    (p.scaled factor).lackingRows tolerance = p.lackingRows tolerance := by
  rw [lackingRows_eq_filter, lackingRows_eq_filter]
  apply List.filter_congr
  intro row hr
  have hrow : row < p.tableau.rows.length := h.length_basis ▸ List.mem_range.mp hr
  rw [startOf_scaled factor tolerance _ hrow]
  rfl

theorem signed_scaled (factor tolerance : ℚ) :
    (p.scaled factor).signed tolerance = (p.signed tolerance).scaled factor := by
  have hrows : ((p.scaled factor).signed tolerance).rows = (p.signed tolerance).rows := by
    apply List.ext_getElem
    · simp [Position.scaled, Tableau.scaled]
    · intro i hi hi'
      have hrow : i < p.tableau.rows.length := by simpa using hi'
      have hline : (p.scaled factor).tableau.line i = p.tableau.line i :=
        Tableau.line_scaled hrow factor
      rw [← Tableau.line_of_lt _ hi, ← Tableau.line_of_lt _ hi',
        line_signed (h.scaled factor).length_basis hrow, line_signed h.length_basis hrow,
        startOf_scaled factor tolerance _ hrow, hline]
      rfl
  have hobjective : ((p.scaled factor).signed tolerance).objective
      = scaleBy factor (p.signed tolerance).objective := by
    rw [objective_signed (h.scaled factor).length_basis, objective_signed h.length_basis]
    rfl
  exact (Tableau.mk.injEq ..).mpr ⟨hrows, hobjective⟩

/-- If no row lacks a start, the prepared position has scaled costs. -/
theorem prepare_scaled_of_eq_nil {tolerance : ℚ} (hready : p.lackingRows tolerance = []) :
    ((p.scaled factor).prepare tolerance).position
      = (p.prepare tolerance).position.scaled factor := by
  have hready' := (lackingRows_scaled h factor tolerance).trans hready
  rw [prepare_of_eq_nil hready, prepare_of_eq_nil hready', signed_scaled h]
  rfl

/-- If some row lacks a start, the costs are not read. -/
theorem prepare_scaled_of_ne_nil {tolerance : ℚ} (hlacks : p.lackingRows tolerance ≠ []) :
    (p.scaled factor).prepare tolerance = p.prepare tolerance := by
  have hsame := lackingRows_scaled h factor tolerance
  rw [prepare_of_ne_nil h.hasWidth hlacks,
    prepare_of_ne_nil (h.scaled factor).hasWidth (hsame ▸ hlacks), hsame, signed_scaled h,
    Tableau.withArtificial_scaled]
  rfl

/-- Installing scaled costs scales the objective row. -/
theorem install_scaleBy (hne : factor ≠ 0) {costs : List ℚ} (hlen : costs.length = width + 1) :
    p.install (scaleBy factor costs) = (p.install costs).scaled factor := by
  have hcosts : costs.length = p.tableau.width := hlen.trans h.hasWidth.width_eq.symm
  rw [install, spread_of_length ((length_scaleBy factor costs).trans hcosts), install,
    spread_of_length hcosts]
  refine Tableau.foldl_clearCost_scaled (t := { p.tableau with objective := costs }) hne ?_
  rintro place hmem
  exact h.length_basis ▸ (mem_zipIdx_basis hmem).2

end Preparation

section Report

theorem objectiveValue_scaled (p : Position ℚ) (factor : ℚ) (sense : Sense) :
    (p.scaled factor).objectiveValue sense = factor * p.objectiveValue sense := by
  cases sense with
  | maximise => exact rhs_scaleBy factor p.tableau.objective
  | minimise =>
    rw [objectiveValue, objectiveValue, mul_neg, ← rhs_scaleBy]
    rfl

theorem hasAlternatives_scaled (hne : factor ≠ 0) (p : Position ℚ) (barred : List ℕ) :
    (p.scaled factor).hasAlternatives barred 0 = p.hasAlternatives barred 0 := by
  have hzero : ∀ j, Scalar.magnitude ((scaleBy factor p.tableau.objective).getD j 0) ≤ 0
      ↔ Scalar.magnitude (p.tableau.objective.getD j 0) ≤ 0 := by
    intro j
    rw [magnitude_eq_abs, magnitude_eq_abs, abs_nonpos_iff, abs_nonpos_iff, getD_scaleBy,
      mul_eq_zero, or_iff_right hne]
  rw [hasAlternatives, hasAlternatives, Tableau.width, Tableau.width]
  simp only [Position.scaled, Tableau.scaled, length_scaleBy, hzero]

theorem solution_scaled (h : p.Framed width) (factor : ℚ) (n : ℕ) :
    (p.scaled factor).solution n = p.solution n := by
  rw [solution, solution]
  apply List.foldl_ext
  rintro values ⟨column, row⟩ hmem
  have hrow : row < p.tableau.rows.length := h.length_basis ▸ (mem_zipIdx_basis hmem).2
  change values.set column (rhs ((p.tableau.scaled factor).line row)) = _
  rw [Tableau.line_scaled hrow]

/-- Only the value of the report is scaled, before it is rounded. -/
theorem report_scaled (h : p.Framed width) (hne : factor ≠ 0) (n : ℕ) (sense : Sense)
    (iterations : ℤ) (barred : List ℕ) :
    (p.scaled factor).report n sense iterations barred 0
      = { p.report n sense iterations barred 0 with
          objectiveValue := some (Scalar.clean (factor * p.objectiveValue sense)) } := by
  simp only [report, hasAlternatives_scaled hne, objectiveValue_scaled, solution_scaled h]

end Report

end Position

end SimplexMethod
