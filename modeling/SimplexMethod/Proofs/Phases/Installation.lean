import SimplexMethod.Proofs.Tableau.System
import SimplexMethod.Proofs.Tableau.Frame

/-!
# Installing costs

Clearing one basic column after the other from a row of costs leaves the constraint rows as they
are. A column that has been cleared stays so, because each row is zero in the basic columns of the
others. On the solutions of the tableau the installed objective is the costs.
-/

namespace SimplexMethod

namespace Position

variable {p : Position ℚ} {width : ℕ} {costs : List ℚ}

/-- The basis has one column for each constraint row, which is one there and zero in the other
constraint rows. Nothing is said about the objective row. -/
structure UnitInRows (p : Position ℚ) : Prop where
  length_eq : p.basis.length = p.tableau.rows.length
  nodup : p.basis.Nodup
  entry_eq : ∀ i < p.tableau.rows.length, ∀ j < p.basis.length,
    p.tableau.entry i (p.basis.getD j 0) = if i = j then 1 else 0

theorem BasicInRows.unitInRows (h : p.BasicInRows) : p.UnitInRows where
  length_eq := h.length_eq
  nodup := h.nodup
  entry_eq := by
    intro i hi j hj
    rw [List.getD_eq_getElem _ _ hj, Tableau.entry, p.tableau.line_of_lt hi]
    exact h.unit i j hi hj

/-- The tableau after the basic columns of the rows before `done` have been cleared from the
costs. -/
structure Installing (p : Position ℚ) (costs : List ℚ) (width done : ℕ) (t : Tableau ℚ) :
    Prop where
  rows_eq : t.rows = p.tableau.rows
  hasWidth : t.HasWidth (width + 1)
  gap_eq : ∀ x, p.tableau.SolvedBy x → gap t.objective x = gap costs x
  cleared : ∀ i < done, t.objective.getD (p.basis.getD i 0) 0 = 0

namespace Installing

variable {done : ℕ} {t : Tableau ℚ}

theorem start (hw : p.tableau.HasWidth (width + 1)) (hlen : costs.length = width + 1) :
    Installing p costs width 0 { p.tableau with objective := costs } where
  rows_eq := rfl
  hasWidth := hw.withObjective hlen
  gap_eq := fun _ _ => rfl
  cleared := fun _ hi => absurd hi (Nat.not_lt_zero _)

/-- Clearing the basic column of one row. -/
theorem step (h : Installing p costs width done t) (hb : p.UnitInRows)
    (hdone : done < p.basis.length) :
    Installing p costs width (done + 1) (t.clearCost (p.basis.getD done 0) done) := by
  have hrow : done < t.rows.length := h.rows_eq ▸ hb.length_eq ▸ hdone
  have hline : t.line done = p.tableau.line done := Tableau.line_eq_of_rows_eq h.rows_eq hrow
  have hlen : (t.line done).length = t.objective.length :=
    (h.hasWidth.length_line (Nat.lt_succ_of_lt hrow)).trans h.hasWidth.width_eq.symm
  have hentry : ∀ i < p.basis.length,
      (t.line done).getD (p.basis.getD i 0) 0 = if done = i then 1 else 0 := by
    intro i hi
    rw [hline, ← Tableau.entry, hb.entry_eq done (hb.length_eq ▸ hdone) i hi]
  refine ⟨h.rows_eq, h.hasWidth.clearCost hrow _, ?_, ?_⟩
  · intro x hx
    have hgap : gap (t.line done) x = 0 :=
      hline ▸ Tableau.solvedBy_iff.mp hx done (hb.length_eq ▸ hdone)
    change gap (cancel (p.basis.getD done 0) (t.line done) t.objective) x = _
    rw [gap_cancel hlen, hgap, mul_zero, sub_zero, h.gap_eq x hx]
  · intro i hi
    change (cancel (p.basis.getD done 0) (t.line done) t.objective).getD (p.basis.getD i 0) 0 = 0
    rw [getD_cancel hlen, hentry i (by omega)]
    rcases Nat.lt_succ_iff_lt_or_eq.mp hi with hlt | rfl
    · rw [if_neg hlt.ne', h.cleared i hlt, mul_zero, sub_zero]
    · rw [if_pos rfl, mul_one, sub_self]

end Installing

/-- Clearing all basic columns. -/
theorem installing_all (h : p.UnitInRows) (hw : p.tableau.HasWidth (width + 1))
    (hlen : costs.length = width + 1) :
    Installing p costs width p.basis.length (p.install costs) := by
  rw [install_eq_foldl_range (hlen.trans hw.width_eq.symm)]
  apply foldl_range_induction
    (motive := fun done t => Installing p costs width done t)
  · exact Installing.start hw hlen
  · intro done hdone t ht
    exact ht.step h hdone

/-- The installed row is zero in the basic columns. -/
theorem getD_install_of_mem (h : p.UnitInRows) (hw : p.tableau.HasWidth (width + 1))
    (hlen : costs.length = width + 1) {column : ℕ} (hc : column ∈ p.basis) :
    (p.install costs).objective.getD column 0 = 0 := by
  obtain ⟨i, hi, rfl⟩ := List.mem_iff_getElem.mp hc
  rw [← List.getD_eq_getElem _ 0 hi]
  exact (installing_all h hw hlen).cleared i hi

/-- With its costs installed a basis is canonical. -/
theorem canonical_install (h : p.BasicInRows) (hw : p.tableau.HasWidth (width + 1))
    (hlen : costs.length = width + 1) : Canonical ⟨p.install costs, p.basis⟩ := by
  refine ⟨⟨?_, h.nodup, ?_, ?_⟩, ?_⟩
  · rw [rows_install]
    exact h.length_eq
  · intro column hc
    rw [(hasWidth_install hw h.length_eq hlen).width_eq, ← hw.width_eq]
    exact h.lt_width column hc
  · intro i j hi hj
    have hrows := p.rows_install costs
    have hi' : i < p.tableau.rows.length := hrows ▸ hi
    rw [List.getElem_of_eq hrows hi]
    exact h.unit i j hi' hj
  · intro column hc
    exact getD_install_of_mem h.unitInRows hw hlen hc

/-- Installing costs does not change the equations. -/
theorem solvedBy_install_iff (p : Position ℚ) (costs : List ℚ) (x : ℕ → ℚ) :
    (p.install costs).SolvedBy x ↔ p.tableau.SolvedBy x := by
  rw [Tableau.SolvedBy, Tableau.SolvedBy, rows_install]

end Position

end SimplexMethod
