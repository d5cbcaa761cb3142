import SimplexMethod.Proofs.Phases.Preparation
import SimplexMethod.Proofs.Pivoting.Progress

/-!
# The auxiliary problem of the first phase

The prepared position of a problem is canonical, and it is ready if the tolerance takes no bound for
zero by mistake. If rows lack a start, its tableau extends the start tableau by artificial columns:
on points without artificial part both state the same equations, and its objective is the sum of the
artificial columns.
-/

namespace SimplexMethod

section Judgement

theorem lacks_rowStart_zero (tolerance bound : ℚ) : (rowStart tolerance 0 bound).lacks = true := by
  simp only [rowStart, lt_irrefl, false_and, if_false]
  split <;> rfl

/-- A row that does not lack a start has entry one in its basic column after its change of sign. -/
theorem sign_mul_slack {tolerance bound : ℚ} {relation : Relation}
    (h : (rowStart tolerance relation.slack bound).lacks = false) :
    (if (rowStart tolerance relation.slack bound).negates then -1 else 1) * relation.slack
      = (1 : ℚ) := by
  revert h
  unfold rowStart
  split
  · rename_i hready
    cases relation with
    | atMost => simp [Relation.slack, RowStart.negates]
    | atLeast => exact absurd hready.1 (by norm_num [Relation.slack])
    | equal => exact absurd hready.1 (by norm_num [Relation.slack])
  · split
    · rename_i hnegated
      cases relation with
      | atMost => exact absurd hnegated.1 (by norm_num [Relation.slack])
      | atLeast => simp [Relation.slack, RowStart.negates]
      | equal => exact absurd hnegated.1 (by norm_num [Relation.slack])
    · split <;> simp [RowStart.lacks]

/-- After its change of sign a row has a right-hand side that is at least the negated tolerance,
and a non-negative one if it is given an artificial column. -/
theorem neg_tolerance_le_sign_mul {tolerance slack bound : ℚ} (htol : 0 ≤ tolerance) :
    -tolerance ≤ (if (rowStart tolerance slack bound).negates then -1 else 1) * bound ∧
      ((rowStart tolerance slack bound).lacks = true →
        0 ≤ (if (rowStart tolerance slack bound).negates then -1 else 1) * bound) := by
  unfold rowStart
  split
  · rename_i hready
    simp [RowStart.negates, RowStart.lacks, hready.2]
  · split
    · rename_i hnegated
      simp [RowStart.negates, RowStart.lacks, hnegated.2]
    · split
      · rename_i hbound
        simp only [RowStart.negates, if_true]
        constructor
        · linarith
        · intro _
          linarith
      · rename_i hbound
        simp only [RowStart.negates, Bool.false_eq_true, if_false, one_mul]
        constructor
        · linarith
        · intro _
          exact not_lt.mp hbound

end Judgement

/-- The wider tableau states the same equations on points without artificial part, and its
objective is the sum of the artificial columns. -/
structure Tableau.Extends (u t : Tableau ℚ) (width count : ℕ) : Prop where
  solvedBy_iff : ∀ x, (∀ k < count, x (width + k) = 0) → (u.SolvedBy x ↔ t.SolvedBy x)
  gap_objective : ∀ x, u.SolvedBy x →
    gap u.objective x = ∑ k ∈ Finset.range count, x (width + k)

section Sum

variable {q : Position ℚ} {u t : Tableau ℚ} {full width count : ℕ} (hq : q.Restates u full)
  (h : u.Extends t width count)

include hq h

theorem Position.Restates.gap_eq_sum {x : ℕ → ℚ} (hx : q.tableau.SolvedBy x) :
    gap q.tableau.objective x = ∑ k ∈ Finset.range count, x (width + k) := by
  have hsolved := (hq.agrees.solvedBy_iff x).mpr hx
  rw [← hq.agrees.gap_eq x hsolved, h.gap_objective x hsolved]

/-- In whatever basis the wider tableau is written, its objective is the sum of the artificial
columns. -/
theorem Position.Restates.neg_rhs_eq_sum :
    -rhs q.tableau.objective = ∑ k ∈ Finset.range count, q.point (width + k) := by
  rw [← hq.canonical.gap_objective_point hq.hasWidth,
    hq.gap_eq_sum h (hq.canonical.solvedBy_point hq.hasWidth)]

/-- The cost of a column is what the artificial columns gain when the column grows. -/
theorem Position.Restates.cost_eq_sum {column : ℕ} (hc : column < full) :
    q.tableau.objective.getD column 0
      = ∑ k ∈ Finset.range count, q.direction column (width + k) := by
  have hray := hq.gap_eq_sum h (hq.canonical.solvedBy_ray hq.hasWidth hc 1)
  rw [hq.canonical.gap_objective_ray hq.hasWidth hc, hq.neg_rhs_eq_sum h,
    Finset.sum_add_distrib] at hray
  simpa using hray

end Sum

namespace Problem

section Judged

variable {α : Type} [Scalar α] {problem : Problem α}

theorem length_basis_eq_rows (problem : Problem α) :
    problem.start.basis.length = problem.start.tableau.rows.length := by
  simp

theorem entry_start_slack (h : problem.fault? = none) {i k : ℕ}
    (hi : i < problem.constraints.length) (hk : k < problem.constraints.length) :
    problem.start.tableau.entry i (problem.dimension + k)
      = if k = i then problem.constraints[i].relation.slack else 0 := by
  have hlen := length_coefficients h (List.getElem_mem hi)
  rw [Tableau.entry, line_start problem hi, Constraint.line, List.append_assoc,
    List.getD_append_right _ _ _ _ (by omega), hlen, Nat.add_sub_cancel_left,
    List.getD_append _ _ _ _ (by simpa using hk)]
  simp [List.getD, hk]

/-- A row of the start tableau is judged by its slack and its bound. -/
theorem startOf_start (h : problem.fault? = none) (tolerance : α) {i : ℕ}
    (hi : i < problem.constraints.length) :
    problem.start.startOf tolerance (problem.start.basis.getD i 0) i
      = rowStart tolerance problem.constraints[i].relation.slack problem.constraints[i].rhs := by
  have hbasis : i < problem.start.basis.length := by simpa using hi
  rw [Position.startOf, List.getD_eq_getElem _ _ hbasis, basis_start problem hbasis,
    entry_start_slack h hi hi, if_pos rfl, line_start problem hi, Constraint.line, rhs_append]

theorem mem_lackingRows_start (h : problem.fault? = none) (tolerance : α) {i : ℕ}
    (hi : i < problem.constraints.length) :
    i ∈ problem.start.lackingRows tolerance ↔
      (rowStart tolerance problem.constraints[i].relation.slack
        problem.constraints[i].rhs).lacks = true := by
  rw [Position.mem_lackingRows, startOf_start h tolerance hi]
  simp [hi]

theorem lt_of_mem_lackingRows {tolerance : α} {i : ℕ}
    (hi : i ∈ problem.start.lackingRows tolerance) : i < problem.constraints.length := by
  simpa using (Position.mem_lackingRows.mp hi).1

end Judged

variable {problem : Problem ℚ}

theorem entry_start_of_lt (h : problem.fault? = none) {i j : ℕ}
    (hi : i < problem.constraints.length) (hj : j < problem.dimension) :
    problem.start.tableau.entry i j = problem.constraints[i].coefficients.getD j 0 := by
  have hlen := length_coefficients h (List.getElem_mem hi)
  rw [Tableau.entry, line_start problem hi, Constraint.line, List.append_assoc,
    List.getD_append _ _ _ _ (hlen.symm ▸ hj)]

theorem getD_objective_start {j : ℕ} (hj : problem.dimension ≤ j) :
    problem.start.tableau.objective.getD j 0 = 0 := by
  have hlen : problem.objective.costs.length = problem.dimension := length_costs _
  rw [start, List.getD_append_right _ _ _ _ (by omega)]
  rcases Nat.lt_or_ge (j - problem.objective.costs.length) (problem.constraints.length + 1)
    with hlt | hge
  · exact List.getD_replicate 0 hlt
  · exact List.getD_eq_default _ _ (by simpa using hge)

/-- The slack columns of rows that do not lack a start are unit columns. -/
theorem rowSign_mul_entry_start (h : problem.fault? = none) {tolerance : ℚ} {i j : ℕ}
    (hi : i < problem.constraints.length) (hj : j < problem.constraints.length)
    (hready : j ∉ problem.start.lackingRows tolerance) :
    problem.start.rowSign tolerance i * problem.start.tableau.entry i (problem.dimension + j)
      = if i = j then 1 else 0 := by
  rw [entry_start_slack h hi hj]
  by_cases hij : i = j
  · subst hij
    have hlacks : (rowStart tolerance problem.constraints[i].relation.slack
        problem.constraints[i].rhs).lacks = false := by
      simpa [mem_lackingRows_start h tolerance hi] using hready
    rw [if_pos rfl, if_pos rfl, Position.rowSign, startOf_start h tolerance hi]
    exact sign_mul_slack hlacks
  · rw [if_neg hij, if_neg (fun heq => hij heq.symm), mul_zero]

/-- The slack columns of equality rows are zero. -/
theorem entry_start_of_idle (h : problem.fault? = none) {i j : ℕ}
    (hi : i < problem.constraints.length) (hj : j ∈ problem.idleColumns) :
    problem.start.tableau.entry i j = 0 := by
  obtain ⟨k, hk, heq, rfl⟩ := mem_idleColumns.mp hj
  rw [entry_start_slack h hi hk]
  split
  · rename_i hki
    subst hki
    simp [heq, Relation.slack]
  · rfl

/-- An equality row always lacks a start. -/
theorem mem_lackingRows_of_equal (h : problem.fault? = none) (tolerance : ℚ) {i : ℕ}
    (hi : i < problem.constraints.length) (heq : problem.constraints[i].relation = .equal) :
    i ∈ problem.start.lackingRows tolerance := by
  rw [mem_lackingRows_start h tolerance hi, heq]
  exact lacks_rowStart_zero tolerance _

theorem rhs_line_start (problem : Problem ℚ) {i : ℕ} (hi : i < problem.constraints.length) :
    rhs (problem.start.tableau.line i) = problem.constraints[i].rhs := by
  rw [line_start problem hi, Constraint.line, rhs_append]

theorem rowSign_mul_rhs (h : problem.fault? = none) {tolerance : ℚ} (htol : 0 ≤ tolerance) {i : ℕ}
    (hi : i < problem.constraints.length) :
    -tolerance ≤ problem.start.rowSign tolerance i * rhs (problem.start.tableau.line i) ∧
      (i ∈ problem.start.lackingRows tolerance →
        0 ≤ problem.start.rowSign tolerance i * rhs (problem.start.tableau.line i)) := by
  rw [mem_lackingRows_start h tolerance hi, Position.rowSign, startOf_start h tolerance hi,
    rhs_line_start problem hi]
  exact neg_tolerance_le_sign_mul htol

/-- A bound that the tolerance does not take for zero by mistake is non-negative after the change
of sign. -/
theorem rowSign_mul_rhs_nonneg (h : problem.fault? = none) {tolerance : ℚ} (htol : 0 ≤ tolerance)
    (hbounds : ∀ row ∈ problem.constraints, Discerned tolerance row.rhs) {i : ℕ}
    (hi : i < problem.constraints.length) :
    0 ≤ problem.start.rowSign tolerance i * rhs (problem.start.tableau.line i) := by
  have hdiscerned : Discerned tolerance
      (problem.start.rowSign tolerance i * rhs (problem.start.tableau.line i)) := by
    rw [rhs_line_start problem hi]
    exact (hbounds _ (List.getElem_mem hi)).mul_left (Position.abs_rowSign _ _ _)
  exact hdiscerned.nonneg_of_neg_le (rowSign_mul_rhs h htol hi).1

/-- The start position with its changes of sign and an artificial column for each row that lacks a
start. -/
def auxiliary (problem : Problem ℚ) (tolerance : ℚ) : Position ℚ where
  tableau := (problem.start.signed tolerance).withArtificial (problem.start.lackingRows tolerance)
  basis := problem.start.artificialBasis (problem.start.lackingRows tolerance)
    (problem.dimension + problem.constraints.length)

theorem hasWidth_signed_start (h : problem.fault? = none) (tolerance : ℚ) :
    (problem.start.signed tolerance).HasWidth
      (problem.dimension + problem.constraints.length + 1) :=
  Position.hasWidth_signed (hasWidth_start h) tolerance

section Auxiliary

variable (h : problem.fault? = none) {tolerance : ℚ}

theorem length_rows_auxiliary (problem : Problem ℚ) (tolerance : ℚ) :
    (problem.auxiliary tolerance).tableau.rows.length = problem.constraints.length := by
  simp [auxiliary]

theorem line_auxiliary {i : ℕ} (hi : i < problem.constraints.length) :
    (problem.auxiliary tolerance).tableau.line i
      = ((problem.start.signed tolerance).extended
          (problem.start.lackingRows tolerance)).line i :=
  Tableau.line_eq_of_rows_eq (Tableau.rows_withArtificial _ _) (by simpa using hi)

theorem rhs_line_auxiliary {i : ℕ} (hi : i < problem.constraints.length) :
    rhs ((problem.auxiliary tolerance).tableau.line i)
      = problem.start.rowSign tolerance i * rhs (problem.start.tableau.line i) := by
  rw [line_auxiliary hi, Tableau.rhs_line_extended (by simpa using hi),
    Position.rhs_line_signed (length_basis_eq_rows problem) (by simpa using hi)]

/-- The basic column of a row: an artificial one if the row lacks a start, else its slack column. -/
theorem getElem_basis_auxiliary {j : ℕ} (hj : j < (problem.auxiliary tolerance).basis.length) :
    (j ∈ problem.start.lackingRows tolerance ∧
        ∃ k, ∃ hk : k < (problem.start.lackingRows tolerance).length,
          (problem.start.lackingRows tolerance)[k] = j ∧
            (problem.auxiliary tolerance).basis[j]
              = problem.dimension + problem.constraints.length + k) ∨
      (j ∉ problem.start.lackingRows tolerance ∧
        (problem.auxiliary tolerance).basis[j] = problem.dimension + j) := by
  have hrow : j < problem.constraints.length := by simpa [auxiliary] using hj
  have hbasis : j < problem.start.basis.length := by simpa using hrow
  by_cases hmem : j ∈ problem.start.lackingRows tolerance
  · exact .inl ⟨hmem, problem.start.getElem_artificialBasis_of_mem hj hmem⟩
  · exact .inr ⟨hmem, (problem.start.getElem_artificialBasis_of_notMem hbasis hj hmem).trans
      (basis_start problem hbasis)⟩

theorem length_basis_auxiliary (problem : Problem ℚ) (tolerance : ℚ) :
    (problem.auxiliary tolerance).basis.length = problem.constraints.length := by
  simp [auxiliary]

include h

theorem hasWidth_auxiliary : (problem.auxiliary tolerance).tableau.HasWidth
    (problem.dimension + problem.constraints.length
      + (problem.start.lackingRows tolerance).length + 1) := by
  apply (hasWidth_signed_start h tolerance).withArtificial
  intro row hr
  simpa using lt_of_mem_lackingRows hr

theorem entry_auxiliary_of_lt {i j : ℕ} (hi : i < problem.constraints.length)
    (hj : j < problem.dimension + problem.constraints.length) :
    (problem.auxiliary tolerance).tableau.entry i j
      = problem.start.rowSign tolerance i * problem.start.tableau.entry i j := by
  rw [Tableau.entry, line_auxiliary hi, ← Tableau.entry,
    Tableau.entry_extended_of_lt (hasWidth_signed_start h tolerance) (by simpa using hi) _ hj,
    Position.entry_signed (length_basis_eq_rows problem) (by simpa using hi)]

theorem entry_auxiliary_add {i k : ℕ} (hi : i < problem.constraints.length)
    (hk : k < (problem.start.lackingRows tolerance).length) :
    (problem.auxiliary tolerance).tableau.entry i
        (problem.dimension + problem.constraints.length + k)
      = if (problem.start.lackingRows tolerance)[k] = i then 1 else 0 := by
  rw [Tableau.entry, line_auxiliary hi, ← Tableau.entry,
    Tableau.entry_extended_add (hasWidth_signed_start h tolerance) (by simpa using hi) hk]

theorem gap_line_auxiliary {i : ℕ} (hi : i < problem.constraints.length) (x : ℕ → ℚ) :
    gap ((problem.auxiliary tolerance).tableau.line i) x
      = problem.start.rowSign tolerance i * gap (problem.start.tableau.line i) x
        + linearForm ((problem.start.lackingRows tolerance).map fun r => if r = i then 1 else 0)
          (fun k => x (problem.dimension + problem.constraints.length + k)) := by
  rw [line_auxiliary hi, Tableau.gap_line_extended (hasWidth_signed_start h tolerance)
      (by simpa using hi), Position.gap_signed (length_basis_eq_rows problem) (by simpa using hi)]

/-- The auxiliary objective: the sum of the artificial columns less the rows they belong to. -/
theorem objective_auxiliary :
    (∀ j, (problem.auxiliary tolerance).tableau.objective.getD j 0
        = ((problem.start.signed tolerance).extended
            (problem.start.lackingRows tolerance)).objective.getD j 0
          - ((problem.start.lackingRows tolerance).map fun row =>
              (problem.auxiliary tolerance).tableau.entry row j).sum) ∧
      ∀ x, gap (problem.auxiliary tolerance).tableau.objective x
        = ∑ k ∈ Finset.range (problem.start.lackingRows tolerance).length,
            x (problem.dimension + problem.constraints.length + k)
          - ((problem.start.lackingRows tolerance).map fun row =>
              gap ((problem.auxiliary tolerance).tableau.line row) x).sum := by
  have hlines : ∀ row ∈ problem.start.lackingRows tolerance,
      row < problem.constraints.length := fun row => lt_of_mem_lackingRows
  obtain ⟨hentry, hgap⟩ := Tableau.objective_foldl_subtractLine
    (problem.start.lackingRows tolerance)
    ((hasWidth_signed_start h tolerance).extended (problem.start.lackingRows tolerance))
    (fun row hr => by simpa using hlines row hr)
  constructor
  · intro j
    rw [auxiliary, Tableau.withArtificial_eq, hentry]
    congr 2
    apply List.map_congr_left
    intro row hr
    rw [Tableau.entry, ← line_auxiliary (hlines row hr)]
    rfl
  · intro x
    rw [auxiliary, Tableau.withArtificial_eq, hgap,
      Tableau.gap_objective_extended (hasWidth_signed_start h tolerance)]
    congr 2
    apply List.map_congr_left
    intro row hr
    rw [← line_auxiliary (hlines row hr)]
    rfl

/-- Each basic column of the auxiliary position is a unit column. -/
theorem entry_auxiliary_basis {i j : ℕ} (hi : i < problem.constraints.length)
    (hj : j < (problem.auxiliary tolerance).basis.length) :
    (problem.auxiliary tolerance).tableau.entry i (problem.auxiliary tolerance).basis[j]
      = if i = j then 1 else 0 := by
  have hrow : j < problem.constraints.length := length_basis_auxiliary problem tolerance ▸ hj
  rcases getElem_basis_auxiliary hj with ⟨-, k, hk, hkj, hcolumn⟩ | ⟨hmem, hcolumn⟩
  · rw [hcolumn, entry_auxiliary_add h hi hk, hkj]
    simp only [eq_comm]
  · rw [hcolumn, entry_auxiliary_of_lt h hi (by omega), rowSign_mul_entry_start h hi hrow hmem]

theorem getD_objective_auxiliary_basis {j : ℕ}
    (hj : j < (problem.auxiliary tolerance).basis.length) :
    (problem.auxiliary tolerance).tableau.objective.getD
      (problem.auxiliary tolerance).basis[j] 0 = 0 := by
  have hrow : j < problem.constraints.length := length_basis_auxiliary problem tolerance ▸ hj
  have hothers : ∀ r ≠ j, r ∈ problem.start.lackingRows tolerance →
      (problem.auxiliary tolerance).tableau.entry r (problem.auxiliary tolerance).basis[j] = 0 := by
    intro r hne hr
    rw [entry_auxiliary_basis h (lt_of_mem_lackingRows hr) hj, if_neg hne]
  rw [(objective_auxiliary h).1, List.sum_map_eq_nsmul_single j _ hothers,
    entry_auxiliary_basis h hrow hj, if_pos rfl]
  rcases getElem_basis_auxiliary hj with ⟨hmem, k, hk, -, hcolumn⟩ | ⟨hmem, hcolumn⟩
  · rw [hcolumn, Tableau.getD_objective_extended_add (hasWidth_signed_start h tolerance) hk,
      List.count_eq_one_of_mem (problem.start.nodup_lackingRows tolerance) hmem]
    norm_num
  · rw [hcolumn, Tableau.getD_objective_extended_of_lt (hasWidth_signed_start h tolerance) _
      (by omega), List.count_eq_zero_of_not_mem hmem]
    norm_num

theorem canonical_auxiliary : (problem.auxiliary tolerance).Canonical := by
  apply Position.Canonical.of_entry
  · simp [auxiliary]
  · intro column hc
    obtain ⟨j, hj, rfl⟩ := List.mem_iff_getElem.mp hc
    have hrow : j < problem.constraints.length := length_basis_auxiliary problem tolerance ▸ hj
    rw [(hasWidth_auxiliary h).width_eq]
    rcases getElem_basis_auxiliary hj with ⟨-, k, hk, -, hcolumn⟩ | ⟨-, hcolumn⟩
    · omega
    · omega
  · intro i j hi hj
    rw [Tableau.height, length_rows_auxiliary] at hi
    rcases Nat.lt_succ_iff_lt_or_eq.mp hi with hlt | rfl
    · exact entry_auxiliary_basis h hlt hj
    · have hne : problem.constraints.length ≠ j :=
        (length_basis_auxiliary problem tolerance ▸ hj).ne'
      rw [Tableau.entry, ← length_rows_auxiliary problem tolerance, Tableau.line_length,
        length_rows_auxiliary, if_neg hne]
      exact getD_objective_auxiliary_basis h hj

/-- No idle column is basic at first: an equality row is given an artificial column. -/
theorem free_auxiliary :
    ∀ column ∈ (problem.auxiliary tolerance).basis, column ∉ problem.idleColumns := by
  intro column hc hidle
  obtain ⟨k, hk, heq, rfl⟩ := mem_idleColumns.mp hidle
  obtain ⟨j, hj, hcolumn⟩ := List.mem_iff_getElem.mp hc
  have hrow : j < problem.constraints.length := length_basis_auxiliary problem tolerance ▸ hj
  have hunit := entry_auxiliary_basis h hrow hj
  rw [hcolumn, entry_auxiliary_of_lt h hrow (by omega),
    entry_start_of_idle h hrow hidle, if_pos rfl, mul_zero] at hunit
  exact zero_ne_one hunit

theorem vanishes_auxiliary :
    (problem.auxiliary tolerance).tableau.Vanishes problem.idleColumns := by
  have hrows : ∀ j ∈ problem.idleColumns, ∀ i < problem.constraints.length,
      (problem.auxiliary tolerance).tableau.entry i j = 0 := by
    intro j hj i hi
    obtain ⟨k, hk, -, rfl⟩ := mem_idleColumns.mp hj
    rw [entry_auxiliary_of_lt h hi (by omega), entry_start_of_idle h hi hj, mul_zero]
  intro j hj i hi
  rw [Tableau.height, length_rows_auxiliary] at hi
  rcases Nat.lt_succ_iff_lt_or_eq.mp hi with hlt | rfl
  · exact hrows j hj i hlt
  · obtain ⟨k, hk, -, hjk⟩ := mem_idleColumns.mp hj
    have hsum : ((problem.start.lackingRows tolerance).map fun row =>
        (problem.auxiliary tolerance).tableau.entry row j).sum = 0 := by
      apply List.sum_eq_zero
      intro a ha
      obtain ⟨row, hr, rfl⟩ := List.mem_map.mp ha
      exact hrows j hj row (lt_of_mem_lackingRows hr)
    rw [Tableau.entry, ← length_rows_auxiliary problem tolerance, Tableau.line_length,
      (objective_auxiliary h).1, hsum,
      Tableau.getD_objective_extended_of_lt (hasWidth_signed_start h tolerance) _ (by omega),
      sub_zero]

theorem regular_auxiliary : (problem.auxiliary tolerance).Regular
    (problem.dimension + problem.constraints.length
      + (problem.start.lackingRows tolerance).length) problem.idleColumns :=
  ⟨hasWidth_auxiliary h, canonical_auxiliary h, free_auxiliary h⟩

theorem ready_auxiliary (htol : 0 ≤ tolerance)
    (hbounds : ∀ row ∈ problem.constraints, Discerned tolerance row.rhs) :
    (problem.auxiliary tolerance).Ready
      (problem.dimension + problem.constraints.length
        + (problem.start.lackingRows tolerance).length) problem.idleColumns where
  toRegular := regular_auxiliary h
  rhs_nonneg := by
    intro row hr
    obtain ⟨i, hi, rfl⟩ := Tableau.mem_rows_iff.mp hr
    rw [length_rows_auxiliary] at hi
    rw [rhs_line_auxiliary hi]
    exact rowSign_mul_rhs_nonneg h htol hbounds hi

/-- The auxiliary tableau extends the start tableau by the artificial columns. -/
theorem extends_auxiliary : (problem.auxiliary tolerance).tableau.Extends problem.start.tableau
    (problem.dimension + problem.constraints.length)
    (problem.start.lackingRows tolerance).length where
  solvedBy_iff := by
    intro x hx
    have hgap : ∀ i < problem.constraints.length,
        gap ((problem.auxiliary tolerance).tableau.line i) x
          = problem.start.rowSign tolerance i * gap (problem.start.tableau.line i) x := by
      intro i hi
      rw [gap_line_auxiliary h hi, linearForm, List.length_map, Finset.sum_eq_zero, add_zero]
      intro k hk
      rw [hx k (Finset.mem_range.mp hk), mul_zero]
    rw [Tableau.solvedBy_iff, Tableau.solvedBy_iff, length_rows_auxiliary, length_rows_start]
    constructor
    · intro hs i hi
      have hzero := hs i hi
      rw [hgap i hi] at hzero
      exact (mul_eq_zero.mp hzero).resolve_left (problem.start.rowSign_ne_zero tolerance i)
    · intro hs i hi
      rw [hgap i hi, hs i hi, mul_zero]
  gap_objective := by
    intro x hx
    have hsum : ((problem.start.lackingRows tolerance).map fun row =>
        gap ((problem.auxiliary tolerance).tableau.line row) x).sum = 0 := by
      apply List.sum_eq_zero
      intro a ha
      obtain ⟨row, hr, rfl⟩ := List.mem_map.mp ha
      apply Tableau.solvedBy_iff.mp hx
      rw [length_rows_auxiliary]
      exact lt_of_mem_lackingRows hr
    rw [(objective_auxiliary h).2, hsum, sub_zero]

end Auxiliary

section Immediate

variable (h : problem.fault? = none) {tolerance : ℚ}
  (hnone : problem.start.lackingRows tolerance = [])

include h hnone

/-- Where no row lacks a start, the signed start position is canonical already. -/
theorem canonical_signed :
    Position.Canonical ⟨problem.start.signed tolerance, problem.start.basis⟩ := by
  apply Position.Canonical.of_entry
  · simp
  · intro column hc
    obtain ⟨j, hj, rfl⟩ := List.mem_iff_getElem.mp hc
    have hrow : j < problem.constraints.length := by simpa using hj
    have hcolumn : problem.start.basis[j] = problem.dimension + j := basis_start problem hj
    change problem.start.basis[j] + 1 < (problem.start.signed tolerance).width
    rw [(hasWidth_signed_start h tolerance).width_eq]
    omega
  · intro i j hi hj
    have hrow : j < problem.constraints.length := by simpa using hj
    have hcolumn : problem.start.basis[j] = problem.dimension + j := basis_start problem hj
    change (problem.start.signed tolerance).entry i problem.start.basis[j] = _
    rw [hcolumn]
    rcases Nat.lt_succ_iff_lt_or_eq.mp hi with hlt | rfl
    · have hi' : i < problem.constraints.length := by simpa using hlt
      rw [Position.entry_signed (length_basis_eq_rows problem) (by simpa using hi'),
        rowSign_mul_entry_start h hi' hrow (by simp [hnone])]
    · have hne : problem.constraints.length ≠ j := by omega
      rw [Tableau.entry, Tableau.line_length,
        Position.objective_signed (length_basis_eq_rows problem),
        getD_objective_start (Nat.le_add_right _ _)]
      simp [hne]

/-- Where no row lacks a start, no row is an equality. -/
theorem idleColumns_eq_nil : problem.idleColumns = [] := by
  rw [List.eq_nil_iff_forall_not_mem]
  intro j hj
  obtain ⟨k, hk, heq, -⟩ := mem_idleColumns.mp hj
  have hmem := mem_lackingRows_of_equal h tolerance hk heq
  rw [hnone] at hmem
  exact List.not_mem_nil hmem

theorem regular_signed : Position.Regular ⟨problem.start.signed tolerance, problem.start.basis⟩
    (problem.dimension + problem.constraints.length) problem.idleColumns where
  hasWidth := hasWidth_signed_start h tolerance
  canonical := canonical_signed h hnone
  free := by simp [idleColumns_eq_nil h hnone]

theorem ready_signed_of_discerned (htol : 0 ≤ tolerance)
    (hbounds : ∀ row ∈ problem.constraints, Discerned tolerance row.rhs) :
    Position.Ready ⟨problem.start.signed tolerance, problem.start.basis⟩
      (problem.dimension + problem.constraints.length) problem.idleColumns where
  toRegular := regular_signed h hnone
  rhs_nonneg := by
    intro row hr
    obtain ⟨i, hi, rfl⟩ := Tableau.mem_rows_iff.mp hr
    have hi' : i < problem.constraints.length := by simpa using hi
    change 0 ≤ rhs ((problem.start.signed tolerance).line i)
    rw [Position.rhs_line_signed (length_basis_eq_rows problem) (by simpa using hi')]
    exact rowSign_mul_rhs_nonneg h htol hbounds hi'

omit hnone in
/-- Without a tolerance the signed start position is ready where no row lacks a start. -/
theorem ready_signed (hnone : problem.start.lackingRows 0 = []) :
    Position.Ready ⟨problem.start.signed 0, problem.start.basis⟩
      (problem.dimension + problem.constraints.length) problem.idleColumns :=
  ready_signed_of_discerned h hnone le_rfl fun _ _ => Discerned.of_eq_zero rfl _

end Immediate

end Problem

end SimplexMethod
