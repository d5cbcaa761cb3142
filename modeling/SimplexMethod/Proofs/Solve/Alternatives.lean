import SimplexMethod.Proofs.Solve.Verdicts

/-!
# Alternative optima

A verdict of alternative optima names a column that is neither basic nor barred and costs nothing.
If no row blocks the column, the basic point moves along it to a second optimal point. A row with
right-hand side zero may block it, so in a degenerate position the optimum may still be unique.
-/

namespace SimplexMethod

/-- A step that is small enough exceeds none of finitely many limits. -/
theorem exists_pos_mul_le (count : ℕ) {entry room : ℕ → ℚ} (hroom : ∀ i < count, 0 ≤ room i)
    (h : ∀ i < count, 0 < entry i → 0 < room i) :
    ∃ a, 0 < a ∧ ∀ i < count, a * entry i ≤ room i := by
  induction count with
  | zero => exact ⟨1, one_pos, fun i hi => absurd hi (Nat.not_lt_zero i)⟩
  | succ count ih =>
    obtain ⟨a, ha, hle⟩ :=
      ih (fun i hi => hroom i (Nat.lt_succ_of_lt hi)) fun i hi => h i (Nat.lt_succ_of_lt hi)
    rcases le_or_gt (entry count) 0 with hnonpos | hpos
    · refine ⟨a, ha, ?_⟩
      intro i hi
      rcases Nat.lt_succ_iff_lt_or_eq.mp hi with hlt | rfl
      · exact hle i hlt
      · exact (mul_nonpos_of_nonneg_of_nonpos ha.le hnonpos).trans (hroom i hi)
    · have hlimit : 0 < room count / entry count :=
        div_pos (h count (Nat.lt_succ_self count) hpos) hpos
      refine ⟨min a (room count / entry count), lt_min ha hlimit, ?_⟩
      intro i hi
      rcases Nat.lt_succ_iff_lt_or_eq.mp hi with hlt | rfl
      · rcases le_or_gt (entry i) 0 with hnonpos | hpos'
        · exact (mul_nonpos_of_nonneg_of_nonpos (lt_min ha hlimit).le hnonpos).trans (hroom i hi)
        · exact (mul_le_mul_of_nonneg_right (min_le_left _ _) hpos'.le).trans (hle i hlt)
      · calc
          min a (room i / entry i) * entry i ≤ room i / entry i * entry i :=
            mul_le_mul_of_nonneg_right (min_le_right _ _) hpos.le
          _ = room i := div_mul_cancel₀ _ hpos.ne'

namespace Position

variable {p : Position ℚ} {width column : ℕ} {barred : List ℕ}

/-- A column of which the position reports that other optima exist: it is neither basic nor barred,
and it costs nothing. -/
structure Alternative (p : Position ℚ) (barred : List ℕ) (column : ℕ) : Prop where
  lt_width : column < p.tableau.width - 1
  notMem_basis : column ∉ p.basis
  notMem_barred : column ∉ barred
  cost_eq_zero : p.tableau.objective.getD column 0 = 0

theorem exists_alternative {tolerance : ℚ} (htol : tolerance = 0)
    (h : p.hasAlternatives barred tolerance = true) : ∃ column, p.Alternative barred column := by
  obtain ⟨column, hlt, hcolumn⟩ := List.any_eq_true.mp h
  rw [decide_eq_true_iff, magnitude_eq_abs, htol] at hcolumn
  obtain ⟨hbasis, hbarred, hcost⟩ := hcolumn
  exact ⟨column, List.mem_range.mp hlt, hbasis, hbarred, abs_nonpos_iff.mp hcost⟩

/-- No row in which the column has a positive entry has right-hand side zero. -/
def Unblocked (p : Position ℚ) (column : ℕ) : Prop :=
  ∀ i < p.tableau.rows.length, 0 < p.tableau.entry i column → 0 < rhs (p.tableau.line i)

/-- Along a column that no row blocks, the basic point moves without turning negative. -/
theorem Ready.exists_move (h : p.Ready width barred) (hu : p.Unblocked column) :
    ∃ a, 0 < a ∧ ∀ j, 0 ≤ p.point j + a * p.direction column j := by
  obtain ⟨a, ha, hle⟩ := exists_pos_mul_le p.tableau.rows.length
    (fun i hi => h.rhs_nonneg _ (Tableau.mem_rows_iff.mpr ⟨i, hi, rfl⟩)) hu
  refine ⟨a, ha, ?_⟩
  intro j
  have hunit : (0 : ℚ) ≤ a * if j = column then 1 else 0 := by
    split <;> simp [ha.le]
  by_cases hj : j ∈ p.basis
  · have hlt : p.basis.idxOf j < p.tableau.rows.length :=
      h.canonical.length_eq ▸ List.idxOf_lt_length_iff.mpr hj
    have hlimit := hle _ hlt
    rw [point, direction, atBasis, atBasis, if_pos hj, if_pos hj]
    linarith
  · rw [point, direction, atBasis_of_notMem _ hj, atBasis_of_notMem _ hj]
    linarith

end Position

namespace Problem

variable {problem : Problem ℚ}

/-- A point determines its slack, apart from that of equality rows. -/
theorem eq_of_withoutSlack_eq (h : problem.fault? = none) {x y : ℕ → ℚ}
    (hx : problem.start.tableau.SolvedBy x) (hy : problem.start.tableau.SolvedBy y)
    (heq : problem.withoutSlack x = problem.withoutSlack y) {j : ℕ}
    (hj : j < problem.dimension + problem.constraints.length) (hidle : j ∉ problem.idleColumns) :
    x j = y j := by
  have hvariables : ∀ k < problem.dimension, x k = y k := by
    intro k hk
    exact List.map_inj_left.mp heq k (List.mem_range.mpr hk)
  rcases Nat.lt_or_ge j problem.dimension with hlt | hge
  · exact hvariables j hlt
  · obtain ⟨i, rfl⟩ := Nat.exists_eq_add_of_le hge
    have hi : i < problem.constraints.length := by omega
    have hform : linearForm problem.constraints[i].coefficients x
        = linearForm problem.constraints[i].coefficients y := by
      rw [← dot_withoutSlack (length_coefficients h (List.getElem_mem hi)), heq,
        dot_withoutSlack (length_coefficients h (List.getElem_mem hi))]
    have hslack : problem.constraints[i].relation.slack ≠ (0 : ℚ) := by
      cases hr : problem.constraints[i].relation with
      | atMost => norm_num [Relation.slack]
      | atLeast => norm_num [Relation.slack]
      | equal => exact absurd (mem_idleColumns.mpr ⟨i, hi, hr, rfl⟩) hidle
    have hgapx := Tableau.solvedBy_iff.mp hx i (by simpa using hi)
    have hgapy := Tableau.solvedBy_iff.mp hy i (by simpa using hi)
    rw [gap_line_start h hi] at hgapx hgapy
    apply mul_left_cancel₀ hslack
    linarith

/-- From an optimal basic point an alternative column that no row blocks leads to a second optimal
point. -/
theorem exists_optimal_ne (h : problem.fault? = none) {p : Position ℚ}
    (hready : p.Ready (problem.dimension + problem.constraints.length) problem.idleColumns)
    (hagrees : problem.start.tableau.Agrees p.tableau)
    (hoptimal : problem.Optimal (p.solution problem.dimension)) {column : ℕ}
    (ha : p.Alternative problem.idleColumns column) (hu : p.Unblocked column) :
    ∃ y, problem.Optimal y ∧ y ≠ p.solution problem.dimension := by
  have hc : column < problem.dimension + problem.constraints.length := by
    have := ha.lt_width
    rwa [hready.hasWidth.width_eq] at this
  rw [solution_eq_withoutSlack hready.canonical.nodup] at hoptimal ⊢
  obtain ⟨a, hpos, hnonneg⟩ := hready.exists_move hu
  have hpoint := (hagrees.solvedBy_iff _).mpr (hready.canonical.solvedBy_point hready.hasWidth)
  have hmoved := (hagrees.solvedBy_iff _).mpr (hready.canonical.solvedBy_ray hready.hasWidth hc a)
  refine ⟨problem.withoutSlack fun j => p.point j + a * p.direction column j,
    ⟨feasible_withoutSlack h hmoved fun j _ => hnonneg j, ?_⟩, ?_⟩
  · have hgap := hready.canonical.gap_objective_ray hready.hasWidth hc a
    rw [ha.cost_eq_zero, mul_zero, add_zero,
      ← hready.canonical.gap_objective_point hready.hasWidth, ← hagrees.gap_eq _ hmoved,
      ← hagrees.gap_eq _ hpoint, gap_objective_withoutSlack, gap_objective_withoutSlack] at hgap
    intro y hy himproves
    apply hoptimal.best y hy
    rw [Sense.improves_iff] at himproves ⊢
    exact himproves.trans_eq hgap
  · intro heq
    have hcolumn := eq_of_withoutSlack_eq h hmoved hpoint heq hc ha.notMem_barred
    rw [Position.direction_self ha.notMem_basis] at hcolumn
    linarith

end Problem

/-- If the verdict is that other optima exist, the solution is optimal, some column is alternative,
and every alternative column that no row blocks leads to another optimal point. -/
theorem exists_optimal_ne_of_alternatives {problem : Problem ℚ} {options : Options ℚ}
    (h : problem.fault? = none) (hrows : problem.constraints ≠ [])
    (htwo : options.twoPhase = true) (htol : options.tolerance = 0) :
    ∃ outcome, solve problem options = .ok (.solved outcome) ∧
      (outcome.report.status = .optimalWithAlternatives →
        ∃ run, outcome.second = some run ∧
          problem.Optimal (run.last.solution problem.dimension) ∧
          (∃ column, run.last.Alternative problem.idleColumns column) ∧
          ∀ column, run.last.Alternative problem.idleColumns column →
            run.last.Unblocked column →
              ∃ y, problem.Optimal y ∧ y ≠ run.last.solution problem.dimension) := by
  obtain ⟨outcome, hsolve, hcourse⟩ := exists_solve h hrows htwo
  refine ⟨outcome, hsolve, ?_⟩
  intro hstatus
  obtain ⟨first, reduced, run, hfirst, hentry, rfl, hsecond, hend, iterations, note, hreport⟩ :=
    hcourse.of_optimal (.inr hstatus)
  obtain ⟨hready, hagrees⟩ := Problem.ready_of_feasible h htol hfirst hentry
  have hoptimal := Problem.optimal_last_run h htol hready hagrees hend
  have hflag : (secondRun problem options reduced.position first.iterations).last.hasAlternatives
      problem.idleColumns options.tolerance = true := by
    rw [hreport, Report.status_withNote] at hstatus
    by_contra hnone
    simp [Position.report, hnone] at hstatus
  refine ⟨_, hsecond, hoptimal, Position.exists_alternative htol hflag, ?_⟩
  intro column halternative hunblocked
  exact Problem.exists_optimal_ne h
    (hready.last_run htol.ge (.of_eq_zero htol _ _) _)
    (hagrees.trans (hready.agrees_last_run htol.ge _)) hoptimal halternative hunblocked

/-- Maximise `x + y` where `x + y ≤ 1`. -/
def Problem.level : Problem ℚ where
  objective := ⟨[1, 1], .maximise⟩
  constraints := [{ coefficients := [1, 1], rhs := 1, relation := .atMost }]

theorem exists_optimal_ne_level :
    ∃ outcome run y, solve .level { tolerance := 0 } = .ok (.solved outcome) ∧
      outcome.report.status = .optimalWithAlternatives ∧ outcome.second = some run ∧
      Problem.level.Optimal (run.last.solution 2) ∧ Problem.level.Optimal y ∧
      y ≠ run.last.solution 2 := by
  obtain ⟨outcome, hsolve, hverdict⟩ :=
    @exists_optimal_ne_of_alternatives .level { tolerance := 0 } (by decide +kernel)
      (by simp [Problem.level]) rfl rfl
  have hstatus : outcome.report.status = .optimalWithAlternatives :=
    status_of_solve hsolve (by decide +kernel)
  obtain ⟨run, hsecond, hoptimal, -, hothers⟩ := hverdict hstatus
  have hlast : outcome.second.map (·.last) = some ⟨⟨[[1, 1, 1, 1]], [0, 0, 1, 1]⟩, [0]⟩ :=
    eq_of_solve hsolve (fun o => o.second.map (·.last)) (by decide +kernel)
  rw [hsecond, Option.map_some, Option.some.injEq] at hlast
  obtain ⟨y, hy, hne⟩ := hothers 1
    (by rw [hlast]; exact ⟨by decide, by decide, by decide, by decide +kernel⟩)
    (by rw [hlast, Position.Unblocked]; decide +kernel)
  exact ⟨outcome, run, y, hsolve, hstatus, hsecond, hoptimal, hy, hne⟩

/-- Maximise `x` where `x ≤ 1` and `x + y ≤ 1`. -/
def Problem.cornered : Problem ℚ where
  objective := ⟨[1, 0], .maximise⟩
  constraints :=
    [{ coefficients := [1, 0], rhs := 1, relation := .atMost },
      { coefficients := [1, 1], rhs := 1, relation := .atMost }]

theorem Problem.eq_of_optimal_cornered {y : List ℚ} (h : Problem.cornered.Optimal y) :
    y = [1, 0] := by
  obtain ⟨a, b, rfl⟩ := List.length_eq_two.mp h.length_eq
  have hfirst := h.holds _ List.mem_cons_self
  have hsecond := h.holds _ (List.mem_cons_of_mem _ List.mem_cons_self)
  have hb := h.nonneg b (by simp)
  have hbest := h.best [1, 0] (by decide +kernel)
  simp only [Constraint.Holds, Sense.Improves, Problem.value, Problem.cornered, dot_cons, dot_nil,
    not_lt] at hfirst hsecond hbest
  have ha : a = 1 := by linarith
  have hzero : b = 0 := by linarith
  rw [ha, hzero]

/-- Other optima are reported although the optimum is unique. -/
theorem optimalWithAlternatives_of_unique :
    ∃ outcome, solve .cornered { tolerance := 0 } = .ok (.solved outcome) ∧
      outcome.report.status = .optimalWithAlternatives ∧
      ∀ y, Problem.cornered.Optimal y → y = [1, 0] := by
  obtain ⟨outcome, hsolve, -⟩ :=
    @exists_solve _ _ .cornered { tolerance := 0 } (by decide +kernel)
      (by simp [Problem.cornered]) rfl
  exact ⟨outcome, hsolve, status_of_solve hsolve (by decide +kernel),
    fun y => Problem.eq_of_optimal_cornered⟩

end SimplexMethod
