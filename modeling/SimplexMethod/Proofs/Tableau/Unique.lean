import SimplexMethod.Proofs.Tableau.Certificate
import SimplexMethod.Proofs.Tableau.Discerned

/-!
# A basis determines its tableau

A row that is zero in the basic columns of a canonical position and has no gap at any solution is
zero. So the rows of a canonical position are determined by the solutions, by the objective on
them, and by the basis: two canonical positions that state one system and have the same basic
columns have the same objective row, and the same constraint row for each basic column.
-/

namespace SimplexMethod

namespace Position

/-- Two positions that differ at most in the order of their constraint rows, each of which keeps
its basic column. -/
structure SameUpToOrder {α : Type} (p q : Position α) : Prop where
  objective_eq : p.tableau.objective = q.tableau.objective
  rows_perm : (p.basis.zip p.tableau.rows).Perm (q.basis.zip q.tableau.rows)

variable {p q : Position ℚ} {t : Tableau ℚ} {width : ℕ}

namespace Canonical

/-- A row that the basic columns and the solutions do not tell from zero is zero: growing one column
alone changes the gap by the entry of the row in it. -/
theorem getD_eq_zero (h : p.Canonical) (hw : p.tableau.HasWidth (width + 1)) {row : List ℚ}
    (hlen : row.length = width + 1) (hbasic : ∀ column ∈ p.basis, row.getD column 0 = 0)
    (hgap : ∀ x, p.tableau.SolvedBy x → gap row x = 0) (j : ℕ) : row.getD j 0 = 0 := by
  have hform : ∀ value, formAt row (p.atBasis value) = 0 := by
    intro value
    apply Finset.sum_eq_zero
    intro j _
    by_cases hj : j ∈ p.basis
    · rw [hbasic j hj, zero_mul]
    · rw [atBasis_of_notMem _ hj, mul_zero]
  have hpoint : gap row p.point = 0 := hgap _ (h.solvedBy_point hw)
  rcases lt_trichotomy j width with hlt | rfl | hgt
  · have hray := hgap _ (h.solvedBy_ray hw hlt 1)
    rw [gap_add_mul, hpoint, formAt_direction, hform, formAt_unit (by omega)] at hray
    linarith
  · rw [gap, point, hform, rhs_eq_getD, hlen, Nat.add_sub_cancel] at hpoint
    linarith
  · exact List.getD_eq_default _ _ (by omega)

/-- Rows that agree in the basic columns and have the same gap at all solutions are equal. -/
theorem row_eq (h : p.Canonical) (hw : p.tableau.HasWidth (width + 1)) {one other : List ℚ}
    (hone : one.length = width + 1) (hother : other.length = width + 1)
    (hbasic : ∀ column ∈ p.basis, one.getD column 0 = other.getD column 0)
    (hgap : ∀ x, p.tableau.SolvedBy x → gap one x = gap other x) : one = other := by
  have hlen : other.length = one.length := hother.trans hone.symm
  have hzero : ∀ j, (List.zipWith (· - ·) one other).getD j 0 = 0 := by
    apply h.getD_eq_zero hw
    · simp [hone, hother]
    · intro column hc
      rw [getD_zipWith_sub hlen, hbasic column hc, sub_self]
    · intro x hx
      rw [gap_zipWith_sub hlen, hgap x hx, sub_self]
  apply eq_of_getD hlen.symm
  intro j
  have hentry := hzero j
  rw [getD_zipWith_sub hlen] at hentry
  exact sub_eq_zero.mp hentry

/-- In the basic columns a constraint row is one at its own column and zero at the others. -/
theorem getD_line_of_mem (h : p.Canonical) {i : ℕ} (hi : i < p.basis.length) {column : ℕ}
    (hc : column ∈ p.basis) :
    (p.tableau.line i).getD column 0 = if column = p.basis[i] then 1 else 0 := by
  obtain ⟨k, hk, rfl⟩ := List.mem_iff_getElem.mp hc
  have hentry := h.entry_getElem (Nat.lt_succ_of_lt (h.length_eq ▸ hi)) hk
  simp only [h.nodup.getElem_inj_iff, eq_comm (a := k)]
  exact hentry

end Canonical

namespace Restates

variable (hp : p.Restates t width) (hq : q.Restates t width)
  (hbasis : ∀ column, column ∈ p.basis ↔ column ∈ q.basis)

include hp hq hbasis

theorem objective_eq : p.tableau.objective = q.tableau.objective := by
  have hagrees := hp.agrees.symm.trans hq.agrees
  apply hp.canonical.row_eq hp.hasWidth hp.hasWidth.width_eq hq.hasWidth.width_eq
  · intro column hc
    rw [hp.canonical.cleared column hc, hq.canonical.cleared column ((hbasis column).mp hc)]
  · exact hagrees.gap_eq

/-- The row of a basic column is the same in both. -/
theorem line_eq {i j : ℕ} (hi : i < p.basis.length) (hj : j < q.basis.length)
    (heq : p.basis[i] = q.basis[j]) : p.tableau.line i = q.tableau.line j := by
  have hagrees := hp.agrees.symm.trans hq.agrees
  have hi' : i < p.tableau.rows.length := hp.canonical.length_eq ▸ hi
  have hj' : j < q.tableau.rows.length := hq.canonical.length_eq ▸ hj
  apply hp.canonical.row_eq hp.hasWidth (hp.hasWidth.length_line (Nat.lt_succ_of_lt hi'))
    (hq.hasWidth.length_line (Nat.lt_succ_of_lt hj'))
  · intro column hc
    rw [hp.canonical.getD_line_of_mem hi hc,
      hq.canonical.getD_line_of_mem hj ((hbasis column).mp hc), heq]
  · intro x hx
    rw [Tableau.solvedBy_iff.mp hx i hi',
      Tableau.solvedBy_iff.mp ((hagrees.solvedBy_iff x).mp hx) j hj']

theorem mem_zip_rows {place : ℕ × List ℚ} (hmem : place ∈ p.basis.zip p.tableau.rows) :
    place ∈ q.basis.zip q.tableau.rows := by
  obtain ⟨i, hi, rfl⟩ := List.mem_iff_getElem.mp hmem
  rw [List.length_zip, lt_min_iff] at hi
  obtain ⟨j, hj, heq⟩ := List.mem_iff_getElem.mp ((hbasis _).mp (List.getElem_mem hi.1))
  have hj' : j < q.tableau.rows.length := hq.canonical.length_eq ▸ hj
  have hline := hp.line_eq hq hbasis hi.1 hj heq.symm
  rw [Tableau.line_of_lt _ hi.2, Tableau.line_of_lt _ hj'] at hline
  have hplace : j < (q.basis.zip q.tableau.rows).length := by
    rw [List.length_zip]
    exact lt_min hj hj'
  rw [List.getElem_zip, hline, ← heq, ← List.getElem_zip (h := hplace)]
  exact List.getElem_mem hplace

end Restates

/-- The basic columns determine a canonical position of a system up to the order of its rows. -/
theorem Restates.sameUpToOrder (hp : p.Restates t width) (hq : q.Restates t width)
    (hbasis : ∀ column, column ∈ p.basis ↔ column ∈ q.basis) : p.SameUpToOrder q where
  objective_eq := hp.objective_eq hq hbasis
  rows_perm := by
    have hnodup : ∀ {r : Position ℚ}, r.Canonical → (r.basis.zip r.tableau.rows).Nodup := by
      intro r hr
      apply List.Nodup.of_map Prod.fst
      rw [List.map_fst_zip hr.length_eq.le]
      exact hr.nodup
    rw [List.perm_ext_iff_of_nodup (hnodup hp.canonical) (hnodup hq.canonical)]
    intro place
    exact ⟨hp.mem_zip_rows hq hbasis, hq.mem_zip_rows hp fun column => (hbasis column).symm⟩

/-- The basis, as a list, determines the tableau. -/
theorem Restates.eq_of_basis_eq (hp : p.Restates t width) (hq : q.Restates t width)
    (hbasis : p.basis = q.basis) : p = q := by
  have hset : ∀ column, column ∈ p.basis ↔ column ∈ q.basis := fun column => by rw [hbasis]
  have hrows : p.tableau.rows = q.tableau.rows := by
    apply List.ext_getElem
    · rw [← hp.canonical.length_eq, ← hq.canonical.length_eq, hbasis]
    · intro i hi hi'
      have hline := hp.line_eq hq hset (hp.canonical.length_eq ▸ hi) (hq.canonical.length_eq ▸ hi')
        (List.getElem_of_eq hbasis _)
      rwa [Tableau.line_of_lt _ hi, Tableau.line_of_lt _ hi'] at hline
  obtain ⟨⟨rows, objective⟩, basis⟩ := p
  obtain ⟨⟨rows', objective'⟩, basis'⟩ := q
  have hobjective : objective = objective' := hp.objective_eq hq hset
  congr

end Position

end SimplexMethod
