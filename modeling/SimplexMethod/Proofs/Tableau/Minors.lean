import Mathlib.LinearAlgebra.Matrix.AbsoluteValue
import Mathlib.LinearAlgebra.Matrix.Rank
import SimplexMethod.Proofs.Tableau.Certificate
import SimplexMethod.Proofs.Tableau.Discerned

/-!
# Common denominators of canonical positions

By Cramer's rule the entries of a canonical position are quotients of minors of any tableau that it
states, all with one minor as denominator. If the entries of that tableau are fractions of bounded
size with a bounded denominator, so the entries of the position have a bounded common denominator,
and a tolerance below its inverse takes none of them for zero by mistake.
-/

namespace SimplexMethod

/-- The rational numbers that are whole. -/
def integers : Subring ℚ :=
  (Int.castRingHom ℚ).range

theorem Discerned.of_mul_mem {tolerance d a : ℚ} (hd : d ≠ 0) (hlt : |d| * tolerance < 1)
    (ha : d * a ∈ integers) : Discerned tolerance a := by
  intro hle
  obtain ⟨z, hz⟩ := RingHom.mem_range.mp ha
  have habs : |(z : ℚ)| < 1 := by
    calc
      |(z : ℚ)| = |d| * |a| := by rw [← abs_mul, ← hz]; rfl
      _ ≤ |d| * tolerance := mul_le_mul_of_nonneg_left hle (abs_nonneg d)
      _ < 1 := hlt
  have hzero : z = 0 := Int.abs_lt_one_iff.mp (by exact_mod_cast habs)
  rw [hzero, map_zero] at hz
  exact (mul_eq_zero.mp hz.symm).resolve_left hd

section Matrix

open Matrix

variable {m n : ℕ}

/-- A matrix whose columns are independent has a square part that is regular. -/
theorem exists_submatrix_det_ne_zero {A : Matrix (Fin m) (Fin n) ℚ}
    (h : Function.Injective A.mulVec) : ∃ f : Fin n → Fin m, (A.submatrix f id).det ≠ 0 := by
  have hrank : Module.finrank ℚ (Submodule.span ℚ (Set.range A.row)) = n := by
    rw [← rank_eq_finrank_span_row, ← rank_transpose]
    exact (LinearIndependent.rank_matrix (mulVec_injective_iff.mp h)).trans (Fintype.card_fin n)
  obtain ⟨g, hg, -, hindependent⟩ :=
    Submodule.exists_fun_fin_finrank_span_eq ℚ (Set.range A.row)
  choose f hf using hg
  refine ⟨f ∘ Fin.cast hrank.symm, ?_⟩
  have hrow : (A.submatrix (f ∘ Fin.cast hrank.symm) id).row = g ∘ Fin.cast hrank.symm := by
    funext i
    exact hf (Fin.cast hrank.symm i)
  rw [← isUnit_iff_ne_zero, ← isUnit_iff_isUnit_det, ← linearIndependent_rows_iff_isUnit, hrow]
  exact hindependent.comp _ (Fin.cast_injective _)

theorem le_of_mulVec_injective {A : Matrix (Fin m) (Fin n) ℚ}
    (h : Function.Injective A.mulVec) : n ≤ m := by
  have hle := LinearMap.finrank_le_finrank_of_injective (f := A.mulVecLin) h
  simpa using hle

theorem det_mul_eq_det_updateCol {A : Matrix (Fin n) (Fin n) ℚ} {v b : Fin n → ℚ}
    (h : A *ᵥ v = b) (i : Fin n) : A.det * v i = (A.updateCol i b).det := by
  rw [← cramer_apply, cramer_eq_adjugate_mulVec, ← h, mulVec_mulVec, adjugate_mul, smul_mulVec,
    one_mulVec, Pi.smul_apply, smul_eq_mul]

theorem pow_mul_det_mem {A : Matrix (Fin n) (Fin n) ℚ} {d : ℚ}
    (h : ∀ i j, d * A i j ∈ integers) : d ^ n * A.det ∈ integers := by
  choose z hz using fun i j => RingHom.mem_range.mp (h i j)
  have hcast : d • A = (Matrix.of z).map (Int.castRingHom ℚ) := by
    ext i j
    exact (hz i j).symm
  have hscaled : (d • A).det = d ^ n * A.det := by
    rw [det_smul, Fintype.card_fin]
  rw [← hscaled, hcast, ← RingHom.mapMatrix_apply, ← RingHom.map_det]
  exact RingHom.mem_range.mpr ⟨_, rfl⟩

/-- By Cramer's rule a solution of a linear system has the determinant of any square part as a
denominator, apart from those of the data. -/
theorem mul_mem_of_mulVec {A : Matrix (Fin m) (Fin n) ℚ} {d : ℚ}
    (hA : ∀ a j, d * A a j ∈ integers) {v : Fin n → ℚ} {b : Fin m → ℚ} (hv : A *ᵥ v = b)
    (hb : ∀ a, d * b a ∈ integers) (f : Fin n → Fin m) (i : Fin n) :
    d ^ n * (A.submatrix f id).det * v i ∈ integers := by
  have hsquare : A.submatrix f id *ᵥ v = b ∘ f := by
    funext a
    exact congrFun hv (f a)
  rw [mul_assoc, det_mul_eq_det_updateCol hsquare]
  apply pow_mul_det_mem
  intro a j
  rw [updateCol_apply]
  split
  · exact hb (f a)
  · exact hA (f a) j

theorem abs_det_le {A : Matrix (Fin n) (Fin n) ℚ} {size : ℚ} (h : ∀ i j, |A i j| ≤ size) :
    |A.det| ≤ n.factorial * size ^ n := by
  have habs : ∀ i j, AbsoluteValue.abs (A i j) ≤ size := h
  have hle := det_le habs
  rw [Fintype.card_fin, nsmul_eq_mul] at hle
  exact hle

end Matrix

/-- The entries of the constraint rows and their right-hand sides are fractions with the given
denominator, and no entry exceeds the given size. -/
structure Tableau.Graded (t : Tableau ℚ) (width : ℕ) (denominator size : ℚ) : Prop where
  mul_entry_mem : ∀ i < t.rows.length, ∀ j < width, denominator * t.entry i j ∈ integers
  mul_rhs_mem : ∀ i < t.rows.length, denominator * rhs (t.line i) ∈ integers
  abs_entry_le : ∀ i < t.rows.length, ∀ j < width, |t.entry i j| ≤ size

namespace Position

/-- A common denominator of the entries of the constraint rows and their right-hand sides. -/
structure Over (q : Position ℚ) (width : ℕ) (d : ℚ) : Prop where
  mem : d ∈ integers
  mul_entry_mem : ∀ i < q.tableau.rows.length, ∀ j < width, d * q.tableau.entry i j ∈ integers
  mul_rhs_mem : ∀ i < q.tableau.rows.length, d * rhs (q.tableau.line i) ∈ integers

variable {q : Position ℚ} {t : Tableau ℚ} {width : ℕ}

section Over

variable {d : ℚ} (h : q.Over width d) (hlen : q.basis.length = q.tableau.rows.length)

include hlen

theorem mul_atBasis_mem {value : ℕ → ℚ}
    (hvalue : ∀ i < q.tableau.rows.length, d * value i ∈ integers) (j : ℕ) :
    d * q.atBasis value j ∈ integers := by
  rw [atBasis]
  split
  · rename_i hmem
    exact hvalue _ (hlen ▸ List.idxOf_lt_length_iff.mpr hmem)
  · rw [mul_zero]
    exact zero_mem _

include h

theorem Over.mul_point_mem (j : ℕ) : d * q.point j ∈ integers :=
  mul_atBasis_mem hlen h.mul_rhs_mem j

theorem Over.mul_direction_mem {column : ℕ} (hc : column < width) (j : ℕ) :
    d * q.direction column j ∈ integers := by
  rw [direction, mul_add, mul_left_comm]
  apply add_mem
  · split
    · rw [mul_one]
      exact h.mem
    · rw [mul_zero]
      exact zero_mem _
  · exact mul_mem (neg_mem (one_mem _))
      (mul_atBasis_mem hlen (fun i hi => h.mul_entry_mem i hi column hc) j)

end Over

/-- A row reads a point on the basis in the basic columns. -/
theorem formAt_atBasis {row : List ℚ} (hnodup : q.basis.Nodup)
    (hlt : ∀ column ∈ q.basis, column < row.length - 1) (value : ℕ → ℚ) :
    formAt row (q.atBasis value)
      = ∑ i : Fin q.basis.length, row.getD q.basis[i] 0 * value i := by
  symm
  apply Finset.sum_of_injOn (fun i : Fin q.basis.length => q.basis[i])
  · intro i _ j _ hij
    exact Fin.ext ((List.Nodup.getElem_inj_iff hnodup).mp hij)
  · intro i _
    exact Finset.mem_coe.mpr (Finset.mem_range.mpr (hlt _ (List.getElem_mem i.isLt)))
  · intro j _ hj
    rw [atBasis_of_notMem, mul_zero]
    intro hmem
    obtain ⟨i, hi, rfl⟩ := List.mem_iff_getElem.mp hmem
    exact hj ⟨⟨i, hi⟩, Finset.mem_coe.mpr (Finset.mem_univ _), rfl⟩
  · intro i _
    rw [Fin.getElem_fin, atBasis_getElem hnodup _ i.isLt]

namespace Restates

open Matrix

/-- The columns of a tableau that are basic in a position. -/
def basisMatrix (t : Tableau ℚ) (q : Position ℚ) :
    Matrix (Fin t.rows.length) (Fin q.basis.length) ℚ :=
  Matrix.of fun a i => t.entry a q.basis[i]

variable (hq : q.Restates t width) (ht : t.HasWidth (width + 1))

include hq ht

theorem basisMatrix_mulVec (value : ℕ → ℚ) (a : Fin t.rows.length) :
    (basisMatrix t q *ᵥ fun i => value i) a = formAt (t.line a) (q.atBasis value) := by
  rw [formAt_atBasis hq.canonical.nodup]
  · rfl
  · intro column hc
    rw [ht.length_line (Nat.lt_succ_of_lt a.isLt)]
    exact hq.canonical.lt_of_mem hq.hasWidth hc

theorem basisMatrix_mulVec_entry {column : ℕ} (hc : column < width) (a : Fin t.rows.length) :
    (basisMatrix t q *ᵥ fun i => q.tableau.entry i column) a = t.entry a column := by
  have hline : (a : ℕ) < t.height := Nat.lt_succ_of_lt a.isLt
  have hsolved := (hq.agrees.solvedBy_iff _).mpr (hq.canonical.solvedBy_point hq.hasWidth)
  have hmoved := (hq.agrees.solvedBy_iff _).mpr (hq.canonical.solvedBy_ray hq.hasWidth hc 1)
  have hzero := Tableau.solvedBy_iff.mp hmoved a a.isLt
  rw [gap_add_mul, Tableau.solvedBy_iff.mp hsolved a a.isLt, formAt_direction,
    formAt_unit (by rw [ht.length_line hline]; exact hc)] at hzero
  rw [basisMatrix_mulVec hq ht (fun i => q.tableau.entry i column), Tableau.entry]
  linarith

theorem basisMatrix_mulVec_rhs (a : Fin t.rows.length) :
    (basisMatrix t q *ᵥ fun i => rhs (q.tableau.line i)) a = rhs (t.line a) := by
  have hsolved := (hq.agrees.solvedBy_iff _).mpr (hq.canonical.solvedBy_point hq.hasWidth)
  rw [basisMatrix_mulVec hq ht (fun i => rhs (q.tableau.line i))]
  exact sub_eq_zero.mp (Tableau.solvedBy_iff.mp hsolved a a.isLt)

/-- The basic point, moved on the basis by a vector that the matrix takes to zero, stays a solution,
and on the basis there is only one. -/
theorem basisMatrix_mulVec_injective : Function.Injective (basisMatrix t q).mulVec := by
  apply (injective_iff_map_eq_zero (basisMatrix t q).mulVecLin).mpr
  intro v hv
  let value : ℕ → ℚ := fun i => if hi : i < q.basis.length then v ⟨i, hi⟩ else 0
  have hvalue : (fun i : Fin q.basis.length => value i) = v := by
    funext i
    exact dif_pos i.isLt
  have hpoint := hq.canonical.solvedBy_point hq.hasWidth
  have hmoved : q.tableau.SolvedBy (fun j => q.point j + 1 * q.atBasis value j) := by
    apply (hq.agrees.solvedBy_iff _).mp
    rw [Tableau.solvedBy_iff]
    intro a ha
    rw [gap_add_mul, Tableau.solvedBy_iff.mp ((hq.agrees.solvedBy_iff _).mpr hpoint) a ha,
      ← basisMatrix_mulVec hq ht value ⟨a, ha⟩, hvalue]
    simpa using congrFun hv ⟨a, ha⟩
  have hfixed := hq.canonical.eq_point hq.hasWidth hmoved (fun j _ hj => by
    rw [point_of_notMem hj, atBasis_of_notMem _ hj, mul_zero, add_zero])
  funext i
  have hcolumn := hfixed _ (hq.canonical.lt_of_mem hq.hasWidth (List.getElem_mem i.isLt))
  rw [atBasis_getElem hq.canonical.nodup _ i.isLt, one_mul, add_eq_left] at hcolumn
  exact (congrFun hvalue i).symm.trans hcolumn

/-- The entries of a canonical position and its right-hand sides have a common denominator that is
bounded by the entries of the tableau it states. -/
theorem exists_over {denominator size : ℚ} (hg : t.Graded width denominator size)
    (hone : 1 ≤ denominator) (hsize : 1 ≤ size) :
    ∃ d, d ≠ 0 ∧
      |d| ≤ denominator ^ t.rows.length * (t.rows.length.factorial * size ^ t.rows.length) ∧
      q.Over width d := by
  have hinjective := basisMatrix_mulVec_injective hq ht
  have hle := le_of_mulVec_injective hinjective
  obtain ⟨f, hdet⟩ := exists_submatrix_det_ne_zero hinjective
  have hcolumn : ∀ i : Fin q.basis.length, q.basis[i] < width :=
    fun i => hq.canonical.lt_of_mem hq.hasWidth (List.getElem_mem i.isLt)
  have hentry : ∀ a i, denominator * basisMatrix t q a i ∈ integers :=
    fun a i => hg.mul_entry_mem a a.isLt _ (hcolumn i)
  refine ⟨denominator ^ q.basis.length * ((basisMatrix t q).submatrix f id).det,
    mul_ne_zero (pow_ne_zero _ (zero_lt_one.trans_le hone).ne') hdet, ?_, ?_, ?_, ?_⟩
  · have hbound : |((basisMatrix t q).submatrix f id).det|
        ≤ t.rows.length.factorial * size ^ t.rows.length := by
      calc
        _ ≤ (q.basis.length.factorial : ℚ) * size ^ q.basis.length :=
          abs_det_le fun a i => hg.abs_entry_le (f a) (f a).isLt _ (hcolumn i)
        _ ≤ t.rows.length.factorial * size ^ t.rows.length :=
          mul_le_mul (by exact_mod_cast Nat.factorial_le hle) (pow_le_pow_right₀ hsize hle)
            (pow_nonneg (zero_le_one.trans hsize) _) (Nat.cast_nonneg _)
    rw [abs_mul, abs_of_nonneg (pow_nonneg (zero_le_one.trans hone) _)]
    exact mul_le_mul (pow_le_pow_right₀ hone hle) hbound (abs_nonneg _)
      (pow_nonneg (zero_le_one.trans hone) _)
  · exact pow_mul_det_mem fun a i => hentry (f a) i
  · intro i hi j hj
    exact mul_mem_of_mulVec hentry (funext (basisMatrix_mulVec_entry hq ht hj))
      (fun a => hg.mul_entry_mem a a.isLt j hj) f ⟨i, hq.canonical.length_eq.symm ▸ hi⟩
  · intro i hi
    exact mul_mem_of_mulVec hentry (funext (basisMatrix_mulVec_rhs hq ht))
      (fun a => hg.mul_rhs_mem a a.isLt) f ⟨i, hq.canonical.length_eq.symm ▸ hi⟩

end Restates

end Position

/-- A tolerance below the inverse of all common denominators discerns the rows. -/
theorem Tableau.Graded.rowsDiscerned {t : Tableau ℚ} {width : ℕ} {denominator size tolerance : ℚ}
    (hg : t.Graded width denominator size) (ht : t.HasWidth (width + 1)) (hone : 1 ≤ denominator)
    (hsize : 1 ≤ size) (htol : 0 ≤ tolerance)
    (hlt : denominator ^ t.rows.length * (t.rows.length.factorial * size ^ t.rows.length)
      * tolerance < 1) :
    t.RowsDiscerned tolerance width := by
  intro q hq i hi j hj
  obtain ⟨d, hne, hle, hover⟩ := hq.exists_over ht hg hone hsize
  exact Discerned.of_mul_mem hne ((mul_le_mul_of_nonneg_right hle htol).trans_lt hlt)
    (hover.mul_entry_mem i hi j hj)

end SimplexMethod
