import SimplexMethod.Proofs.Pivoting.Trace
import SimplexMethod.Report

/-!
# Framed positions

In a framed position all lines have one length and every row has a basic column inside the
tableau. The steps of a solve lead from framed positions to framed ones, and there the checked form
of a step agrees with the unchecked one. Nothing here depends on the arithmetic.
-/

namespace SimplexMethod

variable {α : Type}

/-- Every line has the given number of columns besides the right-hand side, and every row has a
basic column among them. -/
structure Position.Framed (p : Position α) (width : Nat) : Prop where
  hasWidth : p.tableau.HasWidth (width + 1)
  length_basis : p.basis.length = p.tableau.rows.length
  lt_width : ∀ column ∈ p.basis, column < width

theorem mem_zipIdx_basis {basis : List Nat} {column row : Nat}
    (h : (column, row) ∈ basis.zipIdx) : column ∈ basis ∧ row < basis.length := by
  obtain ⟨hlt, heq⟩ := mem_zipIdx_iff.mp h
  exact ⟨heq ▸ List.getElem_mem hlt, hlt⟩

theorem getD_set_of_ne {basis : List Nat} {row i : Nat} (h : row ≠ i) (column : Nat) :
    (basis.set row column).getD i 0 = basis.getD i 0 := by
  simp [List.getD, List.getElem?_set_ne h]

theorem getD_set_eq_or (basis : List Nat) (row column i : Nat) :
    (basis.set row column).getD i 0 = column ∨
      (basis.set row column).getD i 0 = basis.getD i 0 := by
  by_cases h : row = i
  · subst h
    by_cases hlt : row < basis.length
    · exact .inl (by simp [List.getD, hlt])
    · exact .inr (by rw [List.set_eq_of_length_le (Nat.le_of_not_lt hlt)])
  · exact .inr (getD_set_of_ne h column)

theorem getD_set_self {basis : List Nat} {row : Nat} (h : row < basis.length) (column : Nat) :
    (basis.set row column).getD row 0 = column := by
  simp [List.getD, h]

namespace Position

variable {p : Position α} {width : Nat}

theorem Framed.getD_basis_lt (h : p.Framed width) {row : Nat} (hr : row < p.tableau.rows.length) :
    p.basis.getD row 0 < width := by
  rw [List.getD_eq_getElem?_getD, List.getElem?_eq_getElem (h.length_basis ▸ hr)]
  exact h.lt_width _ (List.getElem_mem _)

variable [Scalar α]

namespace Framed

/-- A pivot that puts the entering column into the basis. -/
theorem exchange (h : p.Framed width) {row column : Nat} (hr : row < p.tableau.rows.length)
    (hc : column < width) :
    Framed ⟨p.tableau.pivot row column, p.basis.set row column⟩ width where
  hasWidth := h.hasWidth.pivot (Nat.lt_succ_of_lt hr) column
  length_basis := by simpa using h.length_basis
  lt_width := by
    intro c hmem
    rcases List.mem_or_eq_of_mem_set hmem with hold | rfl
    · exact h.lt_width c hold
    · exact hc

theorem after {s : Pivoting.State α} (h : s.position.Framed width)
    (setting : Pivoting.Setting α) (k : Nat) : (s.after setting k).position.Framed width :=
  Pivoting.State.after_induction (fun t => t.position.Framed width) h
    (fun _ _ _ ht hm => ht.exchange hm.leaving_lt (hm.entering_lt ht.hasWidth)) k

theorem visits_last_run (h : p.Framed width) (options : Options α) (barred : List Nat)
    (budget : Nat) : p.Visits options barred (p.run options barred budget).last :=
  ⟨_, (p.traces (Nat.le_of_eq h.length_basis.symm) options barred budget).last_eq.symm⟩

theorem last_run (h : p.Framed width) (options : Options α) (barred : List Nat) (budget : Nat) :
    (p.run options barred budget).last.Framed width := by
  obtain ⟨k, hk⟩ := h.visits_last_run options barred budget
  rw [← hk]
  exact Framed.after (s := p.state options) h _ _

theorem ending_run_ne (h : p.Framed width) (options : Options α) (barred : List Nat)
    (budget : Nat) : (p.run options barred budget).ending ≠ .noBasicColumn :=
  Pivoting.ending_run_ne_noBasicColumn (Nat.le_of_eq h.length_basis.symm)

/-- The solution can be read off a framed position. -/
theorem solutionAt_eq_ok (h : p.Framed width) (n : Nat) :
    p.solutionAt n = .ok (p.solution n) := by
  have hlines : (p.basis.zipIdx.forM fun place =>
      if place.1 < n then p.tableau.checkLine place.2 else pure ()) = .ok () := by
    apply forM_eq_ok
    intro place hmem
    have hrow := (mem_zipIdx_basis hmem).2
    split
    · exact Tableau.checkLine_eq_ok (Nat.lt_succ_of_lt (h.length_basis ▸ hrow))
    · rfl
  rw [solutionAt, hlines]
  rfl

theorem reportAt_eq_ok (h : p.Framed width) (n : Nat) (sense : Sense) (iterations : Int)
    (barred : List Nat) (tolerance : α) :
    p.reportAt n sense iterations barred tolerance
      = .ok (p.report n sense iterations barred tolerance) := by
  rw [reportAt, h.solutionAt_eq_ok]
  rfl

end Framed

section Preparation

theorem prepare_of_eq_nil {tolerance : α} (h : p.lackingRows tolerance = []) :
    p.prepare tolerance = ⟨⟨p.signed tolerance, p.basis⟩, [], []⟩ := by
  simp [prepare, h]

theorem prepare_of_ne_nil {tolerance : α} (hw : p.tableau.HasWidth (width + 1))
    (h : p.lackingRows tolerance ≠ []) :
    p.prepare tolerance
      = ⟨⟨(p.signed tolerance).withArtificial (p.lackingRows tolerance),
          p.artificialBasis (p.lackingRows tolerance) width⟩,
        p.lackingRows tolerance, List.range' width (p.lackingRows tolerance).length⟩ := by
  simp [prepare, h, hw.width_eq]

theorem Framed.prepareAt_eq_ok (h : p.Framed width) (tolerance : α) :
    p.prepareAt tolerance = .ok (p.prepare tolerance) := by
  have hentries : (p.basis.zipIdx.forM fun place => p.tableau.checkEntry place.2 place.1)
      = .ok () := by
    apply forM_eq_ok
    intro place hmem
    obtain ⟨hcolumn, hrow⟩ := mem_zipIdx_basis hmem
    apply Tableau.checkEntry_eq_ok (Nat.lt_succ_of_lt (h.length_basis ▸ hrow))
    rw [h.hasWidth.width_eq]
    exact Nat.lt_succ_of_lt (h.lt_width place.1 hcolumn)
  rw [prepareAt, hentries]
  rfl

theorem Framed.artificial (h : p.Framed width) {lacking : List Nat}
    (hl : ∀ row ∈ lacking, row < p.tableau.rows.length) (tolerance : α) :
    Framed ⟨(p.signed tolerance).withArtificial lacking, p.artificialBasis lacking width⟩
      (width + lacking.length) where
  hasWidth := by
    apply (hasWidth_signed h.hasWidth tolerance).withArtificial
    simpa using hl
  length_basis := by simpa using h.length_basis
  lt_width := by
    intro column hc
    obtain ⟨i, hi, rfl⟩ := List.mem_iff_getElem.mp hc
    have hi' : i < p.basis.length := by simpa using hi
    by_cases hmem : i ∈ lacking
    · obtain ⟨k, hk, -, heq⟩ := p.getElem_artificialBasis_of_mem hi hmem
      rw [heq]
      exact Nat.add_lt_add_left hk width
    · rw [p.getElem_artificialBasis_of_notMem hi' hi hmem]
      exact Nat.lt_add_right _ (h.lt_width _ (List.getElem_mem hi'))

theorem Framed.signed (h : p.Framed width) (tolerance : α) :
    Framed ⟨p.signed tolerance, p.basis⟩ width :=
  ⟨hasWidth_signed h.hasWidth tolerance, by simpa using h.length_basis, h.lt_width⟩

end Preparation

end Position

section Installation

variable [Scalar α] {t : Tableau α} {p : Position α} {width : Nat} {costs : List α}

/-- Clearing a column inside the tableau with one of its lines. -/
theorem Tableau.clearCostAt_eq_ok {column row : Nat} (hc : column < t.width)
    (hr : row < t.height) : t.clearCostAt column row = .ok (t.clearCost column row) := by
  rw [clearCostAt, checkColumn_eq_ok hc, checkLine_eq_ok hr]
  split <;> rfl

/-- Clearing columns changes the objective row only. -/
theorem Tableau.rows_foldl_clearCost (places : List (Nat × Nat)) (t : Tableau α) :
    (places.foldl (fun t (column, row) => t.clearCost column row) t).rows = t.rows := by
  induction places generalizing t with
  | nil => rfl
  | cons place places ih => exact (ih _).trans (rows_clearCost t place.1 place.2)

namespace Position

@[simp] theorem rows_install (p : Position α) (costs : List α) :
    (p.install costs).rows = p.tableau.rows :=
  Tableau.rows_foldl_clearCost _ _

/-- Installing costs clears one basic column after the other. -/
theorem install_eq_foldl_range (h : costs.length = p.tableau.width) :
    p.install costs = (List.range p.basis.length).foldl
      (fun t row => t.clearCost (p.basis.getD row 0) row)
      { p.tableau with objective := costs } := by
  rw [install, spread_of_length h, zipIdx_eq_map_range, List.foldl_map]

section Lengths

variable (hw : p.tableau.HasWidth width) (hbasis : p.basis.length = p.tableau.rows.length)
  (hlen : costs.length = width)

include hw hbasis hlen

theorem hasWidth_install : (p.install costs).HasWidth width := by
  have hall : (p.install costs).HasWidth width ∧ (p.install costs).rows = p.tableau.rows := by
    rw [install_eq_foldl_range (hlen.trans hw.width_eq.symm)]
    apply foldl_range_induction
      (motive := fun _ (t : Tableau α) => t.HasWidth width ∧ t.rows = p.tableau.rows)
    · exact ⟨hw.withObjective hlen, rfl⟩
    · rintro row hr t ⟨ht, hrows⟩
      exact ⟨ht.clearCost (hrows ▸ hbasis ▸ hr) _, hrows⟩
  exact hall.1

/-- Costs can be installed for a basis inside the tableau. -/
theorem installAt_eq_ok (hlt : ∀ column ∈ p.basis, column < width) :
    p.installAt costs = .ok (p.install costs) := by
  have hcosts : costs.length = p.tableau.width := hlen.trans hw.width_eq.symm
  have hclear : p.basis.zipIdx.foldlM
      (fun (t : Tableau α) place => t.clearCostAt place.1 place.2)
      { p.tableau with objective := costs }
      = .ok (p.basis.zipIdx.foldl (fun t place => t.clearCost place.1 place.2)
        { p.tableau with objective := costs }) := by
    apply foldlM_eq_ok (fun t => t.HasWidth width ∧ t.rows = p.tableau.rows)
      ⟨hw.withObjective hlen, rfl⟩
    · rintro t place hmem ⟨ht, hrows⟩
      have hrow : place.2 < t.rows.length := hrows ▸ hbasis ▸ (mem_zipIdx_basis hmem).2
      exact ⟨ht.clearCost hrow place.1, hrows⟩
    · rintro t place hmem ⟨ht, hrows⟩
      obtain ⟨hcolumn, hrow⟩ := mem_zipIdx_basis hmem
      apply Tableau.clearCostAt_eq_ok
      · rw [ht.width_eq]
        exact hlt place.1 hcolumn
      · rw [Tableau.height, hrows, ← hbasis]
        exact Nat.lt_succ_of_lt hrow
  rw [installAt, install, spread_of_length hcosts]
  simp only [hcosts, ne_eq, not_true_eq_false, if_false]
  exact hclear

end Lengths

theorem Framed.installAt_eq_ok (h : p.Framed width) (hlen : costs.length = width + 1) :
    p.installAt costs = .ok (p.install costs) :=
  Position.installAt_eq_ok h.hasWidth h.length_basis hlen fun column hc =>
    Nat.lt_succ_of_lt (h.lt_width column hc)

theorem Framed.install (h : p.Framed width) (hlen : costs.length = width + 1) :
    Framed ⟨p.install costs, p.basis⟩ width where
  hasWidth := hasWidth_install h.hasWidth h.length_basis hlen
  length_basis := h.length_basis.trans (congrArg List.length (p.rows_install costs).symm)
  lt_width := h.lt_width

end Position

end Installation

end SimplexMethod
