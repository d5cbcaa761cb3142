import Mathlib.Algebra.BigOperators.Ring.Finset
import Mathlib.Algebra.Order.BigOperators.Ring.Finset
import Mathlib.Algebra.Order.Field.Rat
import Mathlib.Data.List.GetD
import Mathlib.Tactic.Linarith
import Mathlib.Tactic.Ring
import SimplexMethod.Tableau.Artificial
import SimplexMethod.Tableau.Equations

/-!
# Rows as affine forms

A row of rationals states an equation: its linear form at a point equals its right-hand side. The
gap of a point is the difference of the two sides. Every operation on rows is stated by what it
does to the entries and by what it does to the gap.

## Implementation notes

A point is a function on all column numbers. Only the columns of a row are read, so a point of a
narrow tableau is also one of a wider tableau, and no length has to be carried along.
-/

namespace SimplexMethod

/-- The sum of the products of all entries with the corresponding entries of a point. -/
def linearForm (entries : List ℚ) (x : ℕ → ℚ) : ℚ :=
  ∑ j ∈ Finset.range entries.length, entries.getD j 0 * x j

/-- The linear form of a row at a point; the last entry of the row is not a column. -/
def formAt (row : List ℚ) (x : ℕ → ℚ) : ℚ :=
  ∑ j ∈ Finset.range (row.length - 1), row.getD j 0 * x j

/-- By how much the linear form exceeds the right-hand side at a point. -/
def gap (row : List ℚ) (x : ℕ → ℚ) : ℚ :=
  formAt row x - rhs row

theorem rhs_eq_getD (row : List ℚ) : rhs row = row.getD (row.length - 1) 0 := by
  rw [rhs, List.getLastD_eq_getLast?, List.getLast?_eq_getElem?, List.getD]

/-- Rows of one length with the same entries are equal. -/
theorem eq_of_getD {row other : List ℚ} (hlen : row.length = other.length)
    (h : ∀ j, row.getD j 0 = other.getD j 0) : row = other := by
  apply List.ext_getElem hlen
  intro j hj hj'
  have hentry := h j
  rwa [List.getD_eq_getElem _ _ hj, List.getD_eq_getElem _ _ hj'] at hentry

theorem formAt_congr {row : List ℚ} {x y : ℕ → ℚ} (h : ∀ j < row.length - 1, x j = y j) :
    formAt row x = formAt row y := by
  apply Finset.sum_congr rfl
  intro j hj
  rw [h j (Finset.mem_range.mp hj)]

theorem gap_congr {row : List ℚ} {x y : ℕ → ℚ} (h : ∀ j < row.length - 1, x j = y j) :
    gap row x = gap row y := by
  rw [gap, gap, formAt_congr h]

/-- A row that reads a point in one column only. -/
theorem formAt_eq_mul {row : List ℚ} {x : ℕ → ℚ} {column : ℕ} (hc : column < row.length - 1)
    (h : ∀ j < row.length - 1, j ≠ column → row.getD j 0 * x j = 0) :
    formAt row x = row.getD column 0 * x column := by
  apply Finset.sum_eq_single_of_mem column (Finset.mem_range.mpr hc)
  intro j hj hne
  exact h j (Finset.mem_range.mp hj) hne

theorem formAt_add_mul (row : List ℚ) (x d : ℕ → ℚ) (a : ℚ) :
    formAt row (fun j => x j + a * d j) = formAt row x + a * formAt row d := by
  simp only [formAt, Finset.mul_sum]
  rw [← Finset.sum_add_distrib]
  apply Finset.sum_congr rfl
  intro j _
  ring

theorem gap_add_mul (row : List ℚ) (x d : ℕ → ℚ) (a : ℚ) :
    gap row (fun j => x j + a * d j) = gap row x + a * formAt row d := by
  rw [gap, gap, formAt_add_mul]
  ring

/-- A row that differs from another one by a multiple of a third one has the corresponding gap. -/
theorem gap_of_getD {row target source : List ℚ} {a b : ℚ} (ht : row.length = target.length)
    (hs : row.length = source.length)
    (h : ∀ j, row.getD j 0 = a * target.getD j 0 - b * source.getD j 0) (x : ℕ → ℚ) :
    gap row x = a * gap target x - b * gap source x := by
  have hform : formAt row x = a * formAt target x - b * formAt source x := by
    simp only [formAt, ← ht, ← hs, Finset.mul_sum]
    rw [← Finset.sum_sub_distrib]
    apply Finset.sum_congr rfl
    intro j _
    rw [h j]
    ring
  have hrhs : rhs row = a * rhs target - b * rhs source := by
    rw [rhs_eq_getD, rhs_eq_getD target, rhs_eq_getD source, ← ht, ← hs, h]
  rw [gap, gap, gap, hform, hrhs]
  ring

section Operations

theorem getD_divideBy (element : ℚ) (row : List ℚ) (j : ℕ) :
    (divideBy element row).getD j 0 = row.getD j 0 / element := by
  simp only [divideBy, List.getD, List.getElem?_map]
  cases row[j]? <;> simp

theorem gap_divideBy (element : ℚ) (row : List ℚ) (x : ℕ → ℚ) :
    gap (divideBy element row) x = gap row x / element := by
  calc
    gap (divideBy element row) x = 1 / element * gap row x - 0 * gap row x :=
      gap_of_getD (by simp [divideBy]) (by simp [divideBy])
        (fun j => by rw [getD_divideBy]; ring) x
    _ = gap row x / element := by ring

theorem getD_neg (row : List ℚ) (j : ℕ) : (row.map (- ·)).getD j 0 = -row.getD j 0 := by
  simp only [List.getD, List.getElem?_map]
  cases row[j]? <;> simp

theorem rhs_neg (row : List ℚ) : rhs (row.map (- ·)) = -rhs row := by
  rw [rhs_eq_getD, rhs_eq_getD row, getD_neg, List.length_map]

theorem gap_neg (row : List ℚ) (x : ℕ → ℚ) : gap (row.map (- ·)) x = -gap row x := by
  calc
    gap (row.map (- ·)) x = -1 * gap row x - 0 * gap row x :=
      gap_of_getD (by simp) (by simp) (fun j => by rw [getD_neg]; ring) x
    _ = -gap row x := by ring

theorem getD_zipWith_sub {target source : List ℚ} (h : source.length = target.length) (j : ℕ) :
    (List.zipWith (· - ·) target source).getD j 0 = target.getD j 0 - source.getD j 0 := by
  simp only [List.getD, List.getElem?_zipWith]
  rcases lt_or_ge j target.length with hj | hj
  · rw [List.getElem?_eq_getElem hj, List.getElem?_eq_getElem (h ▸ hj)]
    rfl
  · rw [List.getElem?_eq_none hj, List.getElem?_eq_none (h ▸ hj)]
    simp

theorem gap_zipWith_sub {target source : List ℚ} (h : source.length = target.length)
    (x : ℕ → ℚ) :
    gap (List.zipWith (· - ·) target source) x = gap target x - gap source x := by
  calc
    gap (List.zipWith (· - ·) target source) x = 1 * gap target x - 1 * gap source x :=
      gap_of_getD (by simp [h]) (by simp [h]) (fun j => by rw [getD_zipWith_sub h]; ring) x
    _ = gap target x - gap source x := by ring

theorem getD_cancel {source target : List ℚ} (h : source.length = target.length)
    (column j : ℕ) :
    (cancel column source target).getD j 0
      = target.getD j 0 - target.getD column 0 * source.getD j 0 := by
  unfold cancel
  split
  · simp only [subtractMultiple, List.getD, List.getElem?_zipWith]
    rcases lt_or_ge j target.length with hj | hj
    · rw [List.getElem?_eq_getElem hj, List.getElem?_eq_getElem (h ▸ hj)]
      rfl
    · rw [List.getElem?_eq_none hj, List.getElem?_eq_none (h ▸ hj)]
      simp
  · rename_i hzero
    have hz : target.getD column 0 = 0 := by simpa using hzero
    rw [hz]
    ring

theorem gap_cancel {source target : List ℚ} (h : source.length = target.length) (column : ℕ)
    (x : ℕ → ℚ) :
    gap (cancel column source target) x = gap target x - target.getD column 0 * gap source x := by
  have hlen : (cancel column source target).length = target.length := length_cancel h
  calc
    gap (cancel column source target) x
        = 1 * gap target x - target.getD column 0 * gap source x :=
      gap_of_getD hlen (hlen.trans h.symm) (fun j => by rw [getD_cancel h]; ring) x
    _ = gap target x - target.getD column 0 * gap source x := by ring

end Operations

section Composition

/-- Padding with zeros changes no entry, as there are only zeros past the end. -/
theorem getD_append_zeros (v : List ℚ) (count j : ℕ) :
    (v ++ List.replicate count 0).getD j 0 = v.getD j 0 := by
  rcases Nat.lt_or_ge j v.length with hj | hj
  · exact List.getD_append _ _ _ _ hj
  · rw [List.getD_append_right _ _ _ _ hj, List.getD_eq_default _ _ hj]
    exact List.getElem?_getD_replicate_default_eq 0 count _

theorem dot_eq_linearForm (entries x : List ℚ) :
    dot entries x = linearForm entries (x.getD · 0) := by
  induction entries generalizing x with
  | nil => rfl
  | cons a entries ih =>
    cases x with
    | nil => simp [dot, linearForm]
    | cons b x =>
      rw [dot_cons, ih, linearForm, linearForm, List.length_cons, Finset.sum_range_succ']
      simp only [List.getD_cons_succ, List.getD_cons_zero]
      ring

theorem linearForm_replicate_zero (n : ℕ) (x : ℕ → ℚ) :
    linearForm (List.replicate n 0) x = 0 := by
  apply Finset.sum_eq_zero
  intro j hj
  rw [List.length_replicate] at hj
  rw [List.getD_replicate 0 (Finset.mem_range.mp hj), zero_mul]

theorem linearForm_append (entries more : List ℚ) (x : ℕ → ℚ) :
    linearForm (entries ++ more) x
      = linearForm entries x + linearForm more (fun k => x (entries.length + k)) := by
  rw [linearForm, List.length_append, Finset.sum_range_add]
  congr 1
  · apply Finset.sum_congr rfl
    intro j hj
    rw [List.getD_append _ _ _ _ (Finset.mem_range.mp hj)]
  · apply Finset.sum_congr rfl
    intro k _
    rw [List.getD_append_right _ _ _ _ (Nat.le_add_right _ _), Nat.add_sub_cancel_left]

theorem gap_concat (entries : List ℚ) (b : ℚ) (x : ℕ → ℚ) :
    gap (entries ++ [b]) x = linearForm entries x - b := by
  have hform : formAt (entries ++ [b]) x = linearForm entries x := by
    rw [formAt, linearForm, List.length_append, List.length_singleton, Nat.add_sub_cancel]
    apply Finset.sum_congr rfl
    intro j hj
    rw [List.getD_append _ _ _ _ (Finset.mem_range.mp hj)]
  rw [gap, hform, rhs_append]

theorem linearForm_dropLast (row : List ℚ) (x : ℕ → ℚ) :
    linearForm row.dropLast x = formAt row x := by
  rw [linearForm, formAt, List.length_dropLast]
  apply Finset.sum_congr rfl
  intro j hj
  have hlt := Finset.mem_range.mp hj
  rw [List.getD, List.getD, List.getElem?_dropLast, if_pos hlt]

/-- At a point given by a list, the two readings of a row agree. -/
theorem rowForm_eq_formAt (row x : List ℚ) : rowForm row x = formAt row (x.getD · 0) := by
  rw [rowForm, dot_eq_linearForm, linearForm_dropLast]

theorem gap_insertBeforeRhs (entries row : List ℚ) (x : ℕ → ℚ) :
    gap (insertBeforeRhs entries row) x
      = gap row x + linearForm entries (fun k => x (row.length - 1 + k)) := by
  rw [insertBeforeRhs, gap_concat, linearForm_append, linearForm_dropLast, gap,
    List.length_dropLast]
  ring

theorem gap_cutTo {width : ℕ} {row : List ℚ} (h : width < row.length) (x : ℕ → ℚ) :
    gap (cutTo width row) x = gap row (fun j => if j < width then x j else 0) := by
  have hle : width ≤ row.length - 1 := Nat.le_sub_one_of_lt h
  have hsub : Finset.range width ⊆ Finset.range (row.length - 1) :=
    Finset.range_subset_range.mpr hle
  rw [cutTo, gap_concat, gap, formAt, linearForm, List.length_take, Nat.min_eq_left h.le]
  congr 1
  rw [← Finset.sum_subset hsub]
  · apply Finset.sum_congr rfl
    intro j hj
    have hlt := Finset.mem_range.mp hj
    rw [if_pos hlt, List.getD, List.getD, List.getElem?_take, if_pos hlt]
  · intro j _ hj
    rw [if_neg (fun hlt => hj (Finset.mem_range.mpr hlt)), mul_zero]

end Composition

end SimplexMethod
