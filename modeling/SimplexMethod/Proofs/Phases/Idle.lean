import SimplexMethod.Proofs.Phases.Entry

/-!
# Idle columns

The slack columns of equality rows are zero in the auxiliary tableau, and so they are in every
tableau of the first phase. The removal of the artificial columns cuts rows and columns only, and
the installed costs agree with the costs of the problem, in which the slack columns are zero. So the
idle columns are zero in the position that enters the second phase as well.
-/

namespace SimplexMethod

section Installed

variable {p : Position ℚ} {width : ℕ} {costs : List ℚ}

/-- The installed costs are the costs themselves on all solutions. -/
theorem Position.agrees_install (h : p.BasicInRows) (hw : p.tableau.HasWidth (width + 1))
    (hlen : costs.length = width + 1) :
    Tableau.Agrees { p.tableau with objective := costs } (p.install costs) where
  solvedBy_iff := fun x => (solvedBy_install_iff p costs x).symm
  gap_eq := fun x hx => ((installing_all h.unitInRows hw hlen).gap_eq x hx).symm

/-- Columns that are zero in the full tableau and in the costs are zero in what is left. -/
theorem Clearing.vanishes_install_left {t : Tableau ℚ} {count : ℕ} {barred : List ℕ}
    {state : Reduced ℚ} (h : Clearing t width count barred t.rows.length state)
    (hlen : costs.length = width + 1) (hlt : ∀ j ∈ barred, j < width)
    (hcosts : ∀ j ∈ barred, costs.getD j 0 = 0) :
    ((state.left width).install costs).Vanishes barred := by
  have hw := h.framed_left.hasWidth
  have hregular := h.regular_install_left hlen
  have hagrees := Position.agrees_install h.basicInRows_left hw hlen
  have hsolved := (hagrees.solvedBy_iff _).mpr
    (hregular.canonical.solvedBy_point hregular.hasWidth)
  apply hagrees.vanishes (hw.withObjective hlen) hregular.hasWidth hsolved hlt
  intro j hj i hi
  rcases Nat.lt_succ_iff_lt_or_eq.mp hi with hrow | rfl
  · have hik : i < state.kept.length := by simpa [Reduced.left, Tableau.restrict] using hrow
    have hkept := h.lt_of_mem_kept (List.getElem_mem hik)
    have hline : Tableau.line { (state.left width).tableau with objective := costs } i
        = cutTo width (state.position.tableau.line state.kept[i]) := by
      rw [Tableau.line_of_lt _ hrow]
      simp [Reduced.left, Tableau.restrict]
    rw [Tableau.entry, hline, getD_cutTo (by rw [h.length_line hkept]; omega) (hlt j hj)]
    exact h.vanishes j hj _ (Nat.lt_succ_of_lt (h.length_rows ▸ hkept))
  · rw [Tableau.entry, Tableau.line_length]
    exact hcosts j hj

end Installed

namespace Problem

variable {problem : Problem ℚ} {options : Options ℚ}

/-- The idle columns are zero in the position that enters the second phase. -/
theorem vanishes_of_feasible (h : problem.fault? = none) (htol : 0 ≤ options.tolerance)
    {phase : FirstPhase ℚ} {reduced : Reduced ℚ}
    (hs : problem.start.Search options problem.idleColumns
      (problem.dimension + problem.constraints.length) phase)
    (hentry : phase.entry = .feasible reduced) :
    reduced.position.tableau.Vanishes problem.idleColumns := by
  rcases hs.of_feasible hentry with ⟨hready, rfl⟩ | ⟨hlacks, -, -, rfl⟩
  · rw [idleColumns_eq_nil h hready]
    exact fun _ hj => absurd hj List.not_mem_nil
  · rw [firstReduced_eq h hlacks]
    apply (clearing_firstRun h htol hlacks).vanishes_install_left (hasWidth_start h).width_eq
      fun _ hj => lt_of_mem_idleColumns hj
    intro j hj
    obtain ⟨i, -, -, rfl⟩ := mem_idleColumns.mp hj
    exact getD_objective_start (Nat.le_add_right _ _)

end Problem

end SimplexMethod
