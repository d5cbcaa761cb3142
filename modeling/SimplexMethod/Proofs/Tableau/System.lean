import SimplexMethod.Proofs.Rows
import SimplexMethod.Proofs.Tableau.Shape

/-!
# The system that a tableau states

A tableau states the equations of its constraint rows, and an affine objective that matters on
their solutions only. Two tableaux agree if they state the same equations and, on the solutions,
the same objective. A pivot at a nonzero entry of a constraint row leads to a tableau that agrees
with the one before it.
-/

namespace SimplexMethod

namespace Tableau

/-- The point has no gap in any constraint row. -/
def SolvedBy (t : Tableau ℚ) (x : ℕ → ℚ) : Prop :=
  ∀ row ∈ t.rows, gap row x = 0

theorem solvedBy_iff {t : Tableau ℚ} {x : ℕ → ℚ} :
    t.SolvedBy x ↔ ∀ i < t.rows.length, gap (t.line i) x = 0 := by
  constructor
  · intro h i hi
    exact h _ (mem_rows_iff.mpr ⟨i, hi, rfl⟩)
  · intro h row hr
    obtain ⟨i, hi, rfl⟩ := mem_rows_iff.mp hr
    exact h i hi

/-- At a point given by a list, a solution is what the equations say it is. -/
theorem solves_iff_solvedBy (t : Tableau ℚ) (x : List ℚ) :
    t.Solves x ↔ t.SolvedBy (x.getD · 0) := by
  constructor
  · intro h row hr
    rw [gap, ← rowForm_eq_formAt, h row hr, sub_self]
  · intro h row hr
    rw [rowForm_eq_formAt]
    exact sub_eq_zero.mp (h row hr)

theorem SolvedBy.congr {t : Tableau ℚ} {width : ℕ} (h : t.HasWidth (width + 1)) {x y : ℕ → ℚ}
    (hxy : ∀ j < width, x j = y j) : t.SolvedBy x ↔ t.SolvedBy y := by
  have hgap : ∀ row ∈ t.rows, gap row x = gap row y := by
    intro row hr
    apply gap_congr
    rw [h.length_row hr]
    exact hxy
  constructor
  · intro hx row hr
    rw [← hgap row hr, hx row hr]
  · intro hy row hr
    rw [hgap row hr, hy row hr]

/-- Both tableaux state the same equations and, on their solutions, the same objective. -/
structure Agrees (t u : Tableau ℚ) : Prop where
  solvedBy_iff : ∀ x, t.SolvedBy x ↔ u.SolvedBy x
  gap_eq : ∀ x, t.SolvedBy x → gap t.objective x = gap u.objective x

namespace Agrees

variable {t u v : Tableau ℚ}

theorem refl (t : Tableau ℚ) : t.Agrees t :=
  ⟨fun _ => Iff.rfl, fun _ _ => rfl⟩

theorem symm (h : t.Agrees u) : u.Agrees t :=
  ⟨fun x => (h.solvedBy_iff x).symm, fun x hx => (h.gap_eq x ((h.solvedBy_iff x).mpr hx)).symm⟩

theorem trans (h : t.Agrees u) (h' : u.Agrees v) : t.Agrees v :=
  ⟨fun x => (h.solvedBy_iff x).trans (h'.solvedBy_iff x),
    fun x hx => (h.gap_eq x hx).trans (h'.gap_eq x ((h.solvedBy_iff x).mp hx))⟩

/-- Along a direction in which all equations stay satisfied, both objectives grow alike. -/
theorem formAt_eq (h : t.Agrees u) {x d : ℕ → ℚ} (hx : t.SolvedBy x)
    (hd : ∀ row ∈ t.rows, formAt row d = 0) : formAt t.objective d = formAt u.objective d := by
  have hmoved : t.SolvedBy (fun j => x j + 1 * d j) := by
    intro row hr
    rw [gap_add_mul, hx row hr, hd row hr]
    ring
  have hstart := h.gap_eq x hx
  have hend := h.gap_eq _ hmoved
  rw [gap_add_mul, gap_add_mul] at hend
  linarith

end Agrees

section Pivot

variable {t : Tableau ℚ} {width row : ℕ}

/-- Only a place inside the tableau holds an entry other than zero. -/
theorem lt_height_of_entry_ne_zero {column : ℕ} (hne : t.entry row column ≠ 0) : row < t.height := by
  by_contra hle
  rw [entry, line_of_height_le t (not_lt.mp hle)] at hne
  exact hne rfl

theorem lt_width_of_entry_ne_zero (h : t.HasWidth width) {column : ℕ}
    (hne : t.entry row column ≠ 0) : column < width := by
  by_contra hle
  rw [← h.length_line (lt_height_of_entry_ne_zero hne)] at hle
  exact hne (List.getD_eq_default _ _ (not_lt.mp hle))

theorem entry_pivot (h : t.HasWidth width) (hr : row < t.height) (column i j : ℕ) :
    (t.pivot row column).entry i j =
      if i = row then t.entry row j / t.entry row column
      else t.entry i j - t.entry i column * (t.entry row j / t.entry row column) := by
  rcases Nat.lt_or_ge i t.height with hi | hi
  · have hlen : (divideBy (t.entry row column) (t.line row)).length = (t.line i).length := by
      simp [divideBy, h.length_line hr, h.length_line hi]
    rw [entry, t.line_pivot column hi]
    split
    · rw [getD_divideBy]
      rfl
    · rw [getD_cancel hlen, getD_divideBy]
      rfl
  · have hne : i ≠ row := by omega
    have hline : (t.pivot row column).line i = [] :=
      line_of_height_le _ (by simpa using hi)
    have hpast : ∀ k, t.entry i k = 0 := by
      intro k
      simp [entry, line_of_height_le t hi]
    rw [if_neg hne, hpast, hpast, entry, hline]
    simp

/-- The entries of the column of a pivot are those of a unit vector. -/
theorem entry_pivot_self (h : t.HasWidth width) (hr : row < t.height) {column : ℕ}
    (hne : t.entry row column ≠ 0) (i : ℕ) :
    (t.pivot row column).entry i column = if i = row then 1 else 0 := by
  rw [entry_pivot h hr, div_self hne]
  split
  · rfl
  · ring

theorem gap_line_pivot (h : t.HasWidth width) (hr : row < t.height) (column : ℕ) {i : ℕ}
    (hi : i < t.height) (x : ℕ → ℚ) :
    gap ((t.pivot row column).line i) x =
      if i = row then gap (t.line row) x / t.entry row column
      else gap (t.line i) x
        - t.entry i column * (gap (t.line row) x / t.entry row column) := by
  have hlen : (divideBy (t.entry row column) (t.line row)).length = (t.line i).length := by
    simp [divideBy, h.length_line hr, h.length_line hi]
  rw [t.line_pivot column hi]
  split
  · rw [gap_divideBy]
  · rw [gap_cancel hlen, gap_divideBy]
    rfl

theorem rhs_line_eq_entry (h : t.HasWidth (width + 1)) {i : ℕ} (hi : i < t.height) :
    rhs (t.line i) = t.entry i width := by
  rw [rhs_eq_getD, h.length_line hi]
  rfl

theorem rhs_line_pivot (h : t.HasWidth (width + 1)) (hr : row < t.height) (column : ℕ) {i : ℕ}
    (hi : i < t.height) :
    rhs ((t.pivot row column).line i) =
      if i = row then rhs (t.line row) / t.entry row column
      else rhs (t.line i)
        - t.entry i column * (rhs (t.line row) / t.entry row column) := by
  have hi' : i < (t.pivot row column).height := by simpa using hi
  rw [rhs_line_eq_entry (h.pivot hr column) hi', rhs_line_eq_entry h hr, rhs_line_eq_entry h hi,
    entry_pivot h hr]

/-- A pivot in a row with right-hand side zero changes no right-hand side. -/
theorem rhs_line_pivot_of_eq_zero (h : t.HasWidth (width + 1)) (hr : row < t.height)
    (hzero : rhs (t.line row) = 0) (column : ℕ) {i : ℕ} (hi : i < t.height) :
    rhs ((t.pivot row column).line i) = rhs (t.line i) := by
  rw [rhs_line_pivot h hr column hi, hzero]
  split
  · rename_i heq
    rw [heq, hzero, zero_div]
  · rw [zero_div, mul_zero, sub_zero]

/-- At a point without a gap in the row of a pivot no line changes its gap. -/
theorem gap_line_pivot_of_eq_zero (h : t.HasWidth width) (hr : row < t.height) {x : ℕ → ℚ}
    (hzero : gap (t.line row) x = 0) (column : ℕ) {i : ℕ} (hi : i < t.height) :
    gap ((t.pivot row column).line i) x = gap (t.line i) x := by
  rw [gap_line_pivot h hr column hi, hzero]
  split
  · rename_i heq
    rw [heq, hzero, zero_div]
  · rw [zero_div, mul_zero, sub_zero]

/-- A point without a gap in the row of a pivot had none in it before. -/
theorem gap_line_eq_zero_of_pivot (h : t.HasWidth width) (hr : row < t.height) {column : ℕ}
    (hne : t.entry row column ≠ 0) {x : ℕ → ℚ}
    (hzero : gap ((t.pivot row column).line row) x = 0) : gap (t.line row) x = 0 := by
  rw [gap_line_pivot h hr column hr, if_pos rfl] at hzero
  exact (div_eq_zero_iff.mp hzero).resolve_right hne

theorem gap_objective_pivot_of_eq_zero (h : t.HasWidth width) (hr : row < t.height) {x : ℕ → ℚ}
    (hzero : gap (t.line row) x = 0) (column : ℕ) :
    gap (t.pivot row column).objective x = gap t.objective x := by
  have hline : (t.pivot row column).line t.rows.length = (t.pivot row column).objective := by
    rw [← length_rows_pivot t row column, line_length]
  rw [← hline, gap_line_pivot_of_eq_zero h hr hzero column (Nat.lt_succ_self _), line_length]

/-- A pivot at a nonzero entry changes neither the solutions nor the objective on them. -/
theorem agrees_pivot (h : t.HasWidth width) (hr : row < t.rows.length) {column : ℕ}
    (hne : t.entry row column ≠ 0) : t.Agrees (t.pivot row column) := by
  have hrow : row < t.height := Nat.lt_succ_of_lt hr
  constructor
  · intro x
    rw [solvedBy_iff, solvedBy_iff, length_rows_pivot]
    constructor
    · intro hx i hi
      rw [gap_line_pivot_of_eq_zero h hrow (hx row hr) column (Nat.lt_succ_of_lt hi), hx i hi]
    · intro hx
      have hgap := gap_line_eq_zero_of_pivot h hrow hne (hx row hr)
      intro i hi
      rw [← gap_line_pivot_of_eq_zero h hrow hgap column (Nat.lt_succ_of_lt hi), hx i hi]
  · intro x hx
    rw [gap_objective_pivot_of_eq_zero h hrow (solvedBy_iff.mp hx row hr)]

/-- The columns are zero in every line. -/
def Vanishes (t : Tableau ℚ) (columns : List ℕ) : Prop :=
  ∀ j ∈ columns, ∀ i < t.height, t.entry i j = 0

/-- A pivot leaves columns zero that are zero. -/
theorem Vanishes.pivot {columns : List ℕ} (hz : t.Vanishes columns) (h : t.HasWidth width)
    (hr : row < t.height) (column : ℕ) : (t.pivot row column).Vanishes columns := by
  intro j hj i hi
  replace hi : i < t.height := by simpa using hi
  rw [entry_pivot h hr, hz j hj row hr, hz j hj i hi]
  simp

end Pivot

end Tableau

end SimplexMethod
