import SimplexMethod.Proofs.Phases.Start
import SimplexMethod.Proofs.Tableau.Certificate

/-!
# The prepared tableau

Changes of sign and artificial columns bring the start tableau of a problem into canonical form
with non-negative right-hand sides. A point without artificial part solves the prepared tableau
exactly if it solves the start tableau, and on its solutions the objective of the prepared tableau
is the sum of the artificial columns.
-/

namespace SimplexMethod

namespace Position

section Lines

variable {α : Type} [Scalar α] {p : Position α} {tolerance : α} {i : ℕ}

theorem line_signed (hlen : p.basis.length = p.tableau.rows.length)
    (hi : i < p.tableau.rows.length) :
    (p.signed tolerance).line i
      = if (p.startOf tolerance (p.basis.getD i 0) i).negates then (p.tableau.line i).map (- ·)
        else p.tableau.line i := by
  have hb : i < p.basis.length := hlen ▸ hi
  rw [signed, Tableau.line_mapLines _ _ (Nat.lt_succ_of_lt hi), List.getElem?_eq_getElem hb,
    List.getD_eq_getElem _ _ hb]

theorem objective_signed (hlen : p.basis.length = p.tableau.rows.length) :
    (p.signed tolerance).objective = p.tableau.objective := by
  simp [signed, Tableau.mapLines, ← hlen]

theorem lackingRows_eq_nil_of_ready
    (hready : ∀ row < p.basis.length,
      p.startOf tolerance (p.basis.getD row 0) row = .ready) :
    p.lackingRows tolerance = [] := by
  refine List.eq_nil_iff_forall_not_mem.mpr fun row hmem => ?_
  obtain ⟨hrow, hlacks⟩ := mem_lackingRows.mp hmem
  rw [hready row hrow] at hlacks
  exact absurd hlacks nofun

/-- If every row is ready, no row changes its sign and none lacks a start. -/
theorem prepare_eq_self (hlen : p.basis.length = p.tableau.rows.length)
    (hready : ∀ row < p.basis.length,
      p.startOf tolerance (p.basis.getD row 0) row = .ready) :
    p.prepare tolerance = ⟨p, [], []⟩ := by
  have hrows : (p.signed tolerance).rows = p.tableau.rows := by
    apply List.ext_getElem (by simp)
    intro row hrow hrow'
    rw [← Tableau.line_of_lt _ hrow, ← Tableau.line_of_lt _ hrow', line_signed hlen hrow',
      hready row (hlen ▸ hrow')]
    rfl
  have hsigned : p.signed tolerance = p.tableau :=
    calc
      p.signed tolerance = ⟨(p.signed tolerance).rows, (p.signed tolerance).objective⟩ := rfl
      _ = ⟨p.tableau.rows, p.tableau.objective⟩ := by rw [hrows, objective_signed hlen]
  rw [prepare_of_eq_nil (lackingRows_eq_nil_of_ready hready), hsigned]

end Lines

section Signs

/-- The factor by which the preparation multiplies a row. -/
def rowSign (p : Position ℚ) (tolerance : ℚ) (row : ℕ) : ℚ :=
  if (p.startOf tolerance (p.basis.getD row 0) row).negates then -1 else 1

variable {p : Position ℚ} {tolerance : ℚ} {i : ℕ}

theorem entry_signed (hlen : p.basis.length = p.tableau.rows.length)
    (hi : i < p.tableau.rows.length) (j : ℕ) :
    (p.signed tolerance).entry i j = p.rowSign tolerance i * p.tableau.entry i j := by
  rw [Tableau.entry, line_signed hlen hi, rowSign]
  split
  · rw [getD_neg, Tableau.entry]
    ring
  · rw [one_mul, Tableau.entry]

theorem gap_signed (hlen : p.basis.length = p.tableau.rows.length)
    (hi : i < p.tableau.rows.length) (x : ℕ → ℚ) :
    gap ((p.signed tolerance).line i) x
      = p.rowSign tolerance i * gap (p.tableau.line i) x := by
  rw [line_signed hlen hi, rowSign]
  split
  · rw [gap_neg]
    ring
  · rw [one_mul]

theorem rhs_line_signed (hlen : p.basis.length = p.tableau.rows.length)
    (hi : i < p.tableau.rows.length) :
    rhs ((p.signed tolerance).line i) = p.rowSign tolerance i * rhs (p.tableau.line i) := by
  rw [line_signed hlen hi, rowSign]
  split
  · rw [rhs_neg]
    ring
  · rw [one_mul]

theorem abs_rowSign (p : Position ℚ) (tolerance : ℚ) (row : ℕ) :
    |p.rowSign tolerance row| = 1 := by
  unfold rowSign
  split <;> norm_num

theorem rowSign_ne_zero (p : Position ℚ) (tolerance : ℚ) (row : ℕ) :
    p.rowSign tolerance row ≠ 0 :=
  abs_ne_zero.mp ((p.abs_rowSign tolerance row).symm ▸ one_ne_zero)

/-- A change of signs does not change what the tableau states. -/
theorem agrees_signed (hlen : p.basis.length = p.tableau.rows.length) :
    p.tableau.Agrees (p.signed tolerance) := by
  constructor
  · intro x
    rw [Tableau.solvedBy_iff, Tableau.solvedBy_iff, length_rows_signed]
    constructor
    · intro hx i hi
      rw [gap_signed hlen hi, hx i hi, mul_zero]
    · intro hx i hi
      have hgap := hx i hi
      rw [gap_signed hlen hi] at hgap
      exact (mul_eq_zero.mp hgap).resolve_left (p.rowSign_ne_zero tolerance i)
  · intro x _
    rw [objective_signed hlen]

end Signs

end Position

namespace Tableau

variable {t : Tableau ℚ} {width : ℕ} {lacking : List ℕ}

theorem line_extended {i : ℕ} (hi : i < t.rows.length) (lacking : List ℕ) :
    (t.extended lacking).line i
      = insertBeforeRhs (lacking.map fun r => if r = i then 1 else 0) (t.line i) := by
  rw [line_of_lt _ (by simpa using hi), t.line_of_lt hi]
  simp [extended]

theorem gap_line_extended (h : t.HasWidth (width + 1)) {i : ℕ} (hi : i < t.rows.length)
    (lacking : List ℕ) (x : ℕ → ℚ) :
    gap ((t.extended lacking).line i) x
      = gap (t.line i) x
        + linearForm (lacking.map fun r => if r = i then 1 else 0) (fun k => x (width + k)) := by
  rw [line_extended hi, gap_insertBeforeRhs, h.length_line (Nat.lt_succ_of_lt hi),
    Nat.add_sub_cancel]

theorem entry_extended_of_lt (h : t.HasWidth (width + 1)) {i : ℕ} (hi : i < t.rows.length)
    (lacking : List ℕ) {j : ℕ} (hj : j < width) :
    (t.extended lacking).entry i j = t.entry i j := by
  have hlen : (t.line i).dropLast.length = width := by
    rw [List.length_dropLast, h.length_line (Nat.lt_succ_of_lt hi), Nat.add_sub_cancel]
  rw [entry, line_extended hi, insertBeforeRhs, List.append_assoc,
    List.getD_append _ _ _ _ (hlen.symm ▸ hj), entry, List.getD, List.getD,
    List.getElem?_dropLast, h.length_line (Nat.lt_succ_of_lt hi), Nat.add_sub_cancel, if_pos hj]

theorem entry_extended_add (h : t.HasWidth (width + 1)) {i : ℕ} (hi : i < t.rows.length)
    {k : ℕ} (hk : k < lacking.length) :
    (t.extended lacking).entry i (width + k) = if lacking[k] = i then 1 else 0 := by
  have hlen : (t.line i).dropLast.length = width := by
    rw [List.length_dropLast, h.length_line (Nat.lt_succ_of_lt hi), Nat.add_sub_cancel]
  rw [entry, line_extended hi, insertBeforeRhs, List.append_assoc,
    List.getD_append_right _ _ _ _ (by omega), hlen, Nat.add_sub_cancel_left,
    List.getD_append _ _ _ _ (by simpa using hk)]
  simp [List.getD, hk]

theorem rhs_line_extended {i : ℕ} (hi : i < t.rows.length) (lacking : List ℕ) :
    rhs ((t.extended lacking).line i) = rhs (t.line i) := by
  rw [line_extended hi, insertBeforeRhs, rhs_append]

theorem getD_objective_extended_of_lt (h : t.HasWidth (width + 1)) (lacking : List ℕ) {j : ℕ}
    (hj : j < width) : (t.extended lacking).objective.getD j 0 = 0 := by
  rw [extended, h.width_eq, Nat.add_sub_cancel, List.append_assoc,
    List.getD_append _ _ _ _ (by simpa using hj), List.getD_replicate 0 hj]

theorem getD_objective_extended_add (h : t.HasWidth (width + 1)) {k : ℕ}
    (hk : k < lacking.length) : (t.extended lacking).objective.getD (width + k) 0 = 1 := by
  rw [extended, h.width_eq, Nat.add_sub_cancel, List.append_assoc,
    List.getD_append_right _ _ _ _ (by simp), List.length_replicate, Nat.add_sub_cancel_left,
    List.getD_append _ _ _ _ (by simpa using hk)]
  simp [List.getD, hk]

/-- Before any row is subtracted the objective is the sum of the artificial columns. -/
theorem gap_objective_extended (h : t.HasWidth (width + 1)) (lacking : List ℕ) (x : ℕ → ℚ) :
    gap (t.extended lacking).objective x
      = ∑ k ∈ Finset.range lacking.length, x (width + k) := by
  rw [extended, h.width_eq, Nat.add_sub_cancel, gap_concat, linearForm_append,
    linearForm_replicate_zero, zero_add, sub_zero, linearForm, List.length_map,
    List.length_replicate]
  apply Finset.sum_congr rfl
  intro k hk
  simp [List.getD, Finset.mem_range.mp hk]

/-- The objective row loses the sum of the lines that are subtracted from it. The lines are
constraint rows, so they stay while others are subtracted. -/
theorem objective_foldl_subtractLine (lines : List ℕ) {t : Tableau ℚ} (h : t.HasWidth width)
    (hl : ∀ row ∈ lines, row < t.rows.length) :
    (∀ j, (lines.foldl subtractLine t).objective.getD j 0
        = t.objective.getD j 0 - (lines.map fun row => t.entry row j).sum) ∧
      ∀ x, gap (lines.foldl subtractLine t).objective x
        = gap t.objective x - (lines.map fun row => gap (t.line row) x).sum := by
  induction lines generalizing t with
  | nil => simp
  | cons row lines ih =>
    have hrow : row < t.rows.length := hl row List.mem_cons_self
    have hlen : (t.line row).length = t.objective.length :=
      (h.length_line (Nat.lt_succ_of_lt hrow)).trans h.width_eq.symm
    have hrest : ∀ r ∈ lines, r < t.rows.length := fun r hr => hl r (List.mem_cons_of_mem _ hr)
    have hline : ∀ r ∈ lines, (t.subtractLine row).line r = t.line r :=
      fun r hr => line_eq_of_rows_eq (t.rows_subtractLine row) (hrest r hr)
    obtain ⟨hentry, hgap⟩ := ih (h.subtractLine hrow) hrest
    constructor
    · intro j
      have hsum : lines.map (fun r => (t.subtractLine row).entry r j)
          = lines.map fun r => t.entry r j :=
        List.map_congr_left fun r hr => by rw [entry, hline r hr, entry]
      rw [List.foldl_cons, hentry, hsum, List.map_cons, List.sum_cons]
      change (List.zipWith (· - ·) t.objective (t.line row)).getD j 0 - _ = _
      rw [getD_zipWith_sub hlen, entry]
      ring
    · intro x
      have hsum : lines.map (fun r => gap ((t.subtractLine row).line r) x)
          = lines.map fun r => gap (t.line r) x :=
        List.map_congr_left fun r hr => by rw [hline r hr]
      rw [List.foldl_cons, hgap, hsum, List.map_cons, List.sum_cons]
      change gap (List.zipWith (· - ·) t.objective (t.line row)) x - _ = _
      rw [gap_zipWith_sub hlen]
      ring

end Tableau

end SimplexMethod
