import SimplexMethod.Proofs.Tableau.BasicPoint

/-!
# What a terminal position certifies

Costs that are nowhere negative certify that no admitted solution is cheaper than the basic point.
A column without positive entries gives a ray of solutions that stay non-negative.
-/

namespace SimplexMethod

namespace Position

variable {p : Position ℚ} {width : ℕ}

/-- If no column that may grow has a negative cost, no point is cheaper than the basic one. -/
theorem Canonical.gap_point_le (h : p.Canonical) (hw : p.tableau.HasWidth (width + 1))
    {barred : List ℕ} (hcost : ∀ j < width, j ∉ barred → 0 ≤ p.tableau.objective.getD j 0)
    {x : ℕ → ℚ} (hx : ∀ j < width, 0 ≤ x j) (hbarred : ∀ j ∈ barred, x j = 0) :
    gap p.tableau.objective p.point ≤ gap p.tableau.objective x := by
  have hform : 0 ≤ formAt p.tableau.objective x := by
    rw [formAt, show p.tableau.objective.length = width + 1 from hw.width_eq]
    apply Finset.sum_nonneg
    intro j hj
    have hlt : j < width := Finset.mem_range.mp hj
    by_cases hb : j ∈ barred
    · rw [hbarred j hb, mul_zero]
    · exact mul_nonneg (hcost j hlt hb) (hx j hlt)
  rw [h.gap_objective_point hw, gap]
  linarith

/-- The basic point is as little negative as the right-hand sides. -/
theorem neg_le_point {slack : ℚ} (hslack : 0 ≤ slack) (hrhs : ∀ row ∈ p.tableau.rows, -slack ≤ rhs row)
    (hlen : p.basis.length = p.tableau.rows.length) (j : ℕ) : -slack ≤ p.point j := by
  rw [point, atBasis]
  split
  · rename_i hmem
    have hlt : p.basis.idxOf j < p.tableau.rows.length :=
      hlen ▸ List.idxOf_lt_length_iff.mpr hmem
    exact hrhs _ (Tableau.mem_rows_iff.mpr ⟨_, hlt, rfl⟩)
  · exact neg_nonpos.mpr hslack

theorem point_nonneg (hrhs : ∀ row ∈ p.tableau.rows, 0 ≤ rhs row)
    (hlen : p.basis.length = p.tableau.rows.length) (j : ℕ) : 0 ≤ p.point j :=
  neg_zero.ge.trans (neg_le_point le_rfl (fun row hr => neg_zero.trans_le (hrhs row hr)) hlen j)

/-- Growing a column lets no basic column fall faster than the largest entry of the column. -/
theorem neg_le_direction {column : ℕ} (hlen : p.basis.length = p.tableau.rows.length) {bound : ℚ}
    (hbound : 0 ≤ bound) (hentry : ∀ i < p.tableau.rows.length, p.tableau.entry i column ≤ bound)
    (j : ℕ) : -bound ≤ p.direction column j := by
  have hbasis : p.atBasis (fun row => p.tableau.entry row column) j ≤ bound := by
    rw [atBasis]
    split
    · rename_i hmem
      exact hentry _ (hlen ▸ List.idxOf_lt_length_iff.mpr hmem)
    · exact hbound
  have hunit : (0 : ℚ) ≤ if j = column then 1 else 0 := by
    split <;> norm_num
  rw [direction]
  linarith

/-- Growing a column without positive entries takes no basic column below zero. -/
theorem direction_nonneg {column : ℕ} (hlen : p.basis.length = p.tableau.rows.length)
    (hentry : ∀ i < p.tableau.rows.length, p.tableau.entry i column ≤ 0) (j : ℕ) :
    0 ≤ p.direction column j :=
  neg_zero.ge.trans (neg_le_direction hlen le_rfl hentry j)

/-- The points on a ray from the basic point are solutions. -/
theorem Canonical.solvedBy_ray (h : p.Canonical) (hw : p.tableau.HasWidth (width + 1))
    {column : ℕ} (hc : column < width) (a : ℚ) :
    p.tableau.SolvedBy (fun j => p.point j + a * p.direction column j) := by
  intro row hr
  rw [gap_add_mul, h.solvedBy_point hw row hr, h.formAt_row_direction hw hc hr]
  ring

/-- Along a ray the objective grows by the cost of the column. -/
theorem Canonical.gap_objective_ray (h : p.Canonical) (hw : p.tableau.HasWidth (width + 1))
    {column : ℕ} (hc : column < width) (a : ℚ) :
    gap p.tableau.objective (fun j => p.point j + a * p.direction column j)
      = -rhs p.tableau.objective + a * p.tableau.objective.getD column 0 := by
  rw [gap_add_mul, h.gap_objective_point hw, h.formAt_objective_direction hw hc]

end Position

end SimplexMethod
