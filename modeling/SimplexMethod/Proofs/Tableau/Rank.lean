import Mathlib.LinearAlgebra.Matrix.Rank
import SimplexMethod.Proofs.Tableau.System

/-!
# The rank of the first columns

Two tableaux with the same solutions among the points that are zero from some column on have the
same rank in the columns before it, as long as there is such a solution. Where the basic columns of
a position are among the first ones, its rows are independent there.
-/

namespace SimplexMethod

/-- Matrices with the same null vectors have the same rank. -/
theorem rank_eq_of_mulVec_eq_zero_iff {m k n : ℕ} {A : Matrix (Fin m) (Fin n) ℚ}
    {B : Matrix (Fin k) (Fin n) ℚ} (h : ∀ x, A.mulVec x = 0 ↔ B.mulVec x = 0) :
    A.rank = B.rank := by
  have hker : LinearMap.ker A.mulVecLin = LinearMap.ker B.mulVecLin := by
    ext x
    rw [LinearMap.mem_ker, LinearMap.mem_ker, Matrix.mulVecLin_apply, Matrix.mulVecLin_apply]
    exact h x
  have hA := A.mulVecLin.finrank_range_add_finrank_ker
  have hB := B.mulVecLin.finrank_range_add_finrank_ker
  rw [hker] at hA
  exact Nat.add_right_cancel (hA.trans hB.symm)

namespace Tableau

/-- The first columns of the constraint rows. -/
def leading (t : Tableau ℚ) (width : ℕ) : Matrix (Fin t.rows.length) (Fin width) ℚ :=
  Matrix.of fun i j => t.entry i j

variable {t u : Tableau ℚ} {width full other : ℕ}

/-- The point with the given first coordinates and zeros after them. -/
def padded (x : Fin width → ℚ) : ℕ → ℚ := fun j =>
  if h : j < width then x ⟨j, h⟩ else 0

theorem padded_of_le (x : Fin width → ℚ) {j : ℕ} (hj : width ≤ j) : padded x j = 0 :=
  dif_neg (not_lt.mpr hj)

/-- A line reads a padded point in the first columns. -/
theorem formAt_line_padded (h : t.HasWidth (full + 1)) (hle : width ≤ full) (x : Fin width → ℚ)
    (i : Fin t.rows.length) : formAt (t.line i) (padded x) = (t.leading width).mulVec x i := by
  have hlen := h.length_line (Nat.lt_succ_of_lt i.isLt)
  have hsub : Finset.range width ⊆ Finset.range ((t.line i).length - 1) :=
    Finset.range_subset_range.mpr (by omega)
  rw [formAt, ← Finset.sum_subset hsub, Finset.sum_range, Matrix.mulVec, dotProduct]
  · apply Finset.sum_congr rfl
    intro j _
    rw [padded, dif_pos j.isLt]
    rfl
  · intro j _ hj
    rw [padded_of_le x (not_lt.mp fun hlt => hj (Finset.mem_range.mpr hlt)), mul_zero]

/-- From one solution on, the null vectors of the first columns are the moves to other solutions. -/
theorem leading_mulVec_eq_zero_iff (h : t.HasWidth (full + 1)) (hle : width ≤ full) {y : ℕ → ℚ}
    (hy : t.SolvedBy y) (x : Fin width → ℚ) :
    (t.leading width).mulVec x = 0 ↔ t.SolvedBy fun j => y j + 1 * padded x j := by
  rw [solvedBy_iff, funext_iff]
  constructor
  · intro hx i hi
    rw [gap_add_mul, solvedBy_iff.mp hy i hi, formAt_line_padded h hle x ⟨i, hi⟩, hx]
    simp
  · intro hx i
    have hmoved := hx i i.isLt
    rw [gap_add_mul, solvedBy_iff.mp hy i i.isLt, formAt_line_padded h hle] at hmoved
    simpa using hmoved

/-- The rank of the first columns is determined by the solutions that are zero after them. -/
theorem rank_leading_eq (ht : t.HasWidth (full + 1)) (hu : u.HasWidth (other + 1))
    (htw : width ≤ full) (huw : width ≤ other)
    (h : ∀ x : ℕ → ℚ, (∀ j, width ≤ j → x j = 0) → (t.SolvedBy x ↔ u.SolvedBy x))
    {y : ℕ → ℚ} (hzero : ∀ j, width ≤ j → y j = 0) (hy : t.SolvedBy y) :
    (t.leading width).rank = (u.leading width).rank := by
  apply rank_eq_of_mulVec_eq_zero_iff
  intro x
  rw [leading_mulVec_eq_zero_iff ht htw hy, leading_mulVec_eq_zero_iff hu huw ((h y hzero).mp hy)]
  apply h
  intro j hj
  rw [hzero j hj, padded_of_le x hj]
  ring

end Tableau

/-- Rows with unit columns among the first columns are independent there: in the basic column of a
row a combination of the rows reads the factor of that row. -/
theorem Position.BasicInRows.rank_leading {p : Position ℚ} (h : p.BasicInRows) {width : ℕ}
    (hlt : ∀ column ∈ p.basis, column < width) :
    (p.tableau.leading width).rank = p.tableau.rows.length := by
  have hrows : LinearIndependent ℚ (p.tableau.leading width).row := by
    rw [Fintype.linearIndependent_iff]
    intro factor hsum i
    have hi : (i : ℕ) < p.basis.length := i.isLt.trans_eq h.length_eq.symm
    have hcolumn := congrFun hsum ⟨p.basis[(i : ℕ)], hlt _ (List.getElem_mem hi)⟩
    rw [Finset.sum_apply, Finset.sum_eq_single_of_mem i (Finset.mem_univ i)] at hcolumn
    · have hone : p.tableau.entry i p.basis[(i : ℕ)] = 1 := by
        rw [Tableau.entry, p.tableau.line_of_lt i.isLt, h.unit i i i.isLt hi, if_pos rfl]
      simpa [Tableau.leading, hone] using hcolumn
    · intro k _ hne
      have hzero : p.tableau.entry k p.basis[(i : ℕ)] = 0 := by
        rw [Tableau.entry, p.tableau.line_of_lt k.isLt, h.unit k i k.isLt hi,
          if_neg (fun heq => hne (Fin.ext heq))]
      simp [Tableau.leading, hzero]
  rw [hrows.rank_matrix, Fintype.card_fin]

end SimplexMethod
