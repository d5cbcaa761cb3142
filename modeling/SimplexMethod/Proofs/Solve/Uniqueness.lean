import SimplexMethod.Proofs.Solve.Verdicts

/-!
# Unique optima

If every column that is neither basic nor barred has a positive cost, an admitted solution that is
no more expensive than the basic point is zero outside the basis, so it is the basic point. A plain
optimal verdict is given in such a position only, so the point that is read off is the only optimal
one. Rows that were dropped do not matter: what is left still states the whole problem.
-/

namespace SimplexMethod

namespace Position

variable {p : Position ℚ} {width : ℕ} {barred : List ℕ}

/-- Every column that is neither basic nor barred has a positive cost. -/
def Strict (p : Position ℚ) (width : ℕ) (barred : List ℕ) : Prop :=
  ∀ j < width, j ∉ p.basis → j ∉ barred → 0 < p.tableau.objective.getD j 0

/-- If no column that may grow has a negative cost and none is an alternative, all costs outside the
basis are positive. -/
theorem strict_of_hasAlternatives_eq_false {tolerance : ℚ} (htol : 0 ≤ tolerance)
    (hw : p.tableau.HasWidth (width + 1))
    (hcost : ∀ j < width, j ∉ barred → 0 ≤ p.tableau.objective.getD j 0)
    (hnone : p.hasAlternatives barred tolerance = false) : p.Strict width barred := by
  intro j hj hbasis hbarred
  have hlt : j < p.tableau.width - 1 := by
    rw [hw.width_eq]
    omega
  have hfar := List.any_eq_false.mp hnone j (List.mem_range.mpr hlt)
  rw [decide_eq_true_iff, magnitude_eq_abs, abs_of_nonneg (hcost j hj hbarred)] at hfar
  by_contra hle
  exact hfar ⟨hbasis, hbarred, (not_lt.mp hle).trans htol⟩

namespace Canonical

variable (h : p.Canonical) (hw : p.tableau.HasWidth (width + 1)) (hstrict : p.Strict width barred)
  {x : ℕ → ℚ} (hx : ∀ j < width, 0 ≤ x j) (hbarred : ∀ j ∈ barred, x j = 0)

include h hstrict hx hbarred

/-- No column adds a negative amount to the objective. -/
theorem cost_mul_nonneg {j : ℕ} (hj : j < width) : 0 ≤ p.tableau.objective.getD j 0 * x j := by
  by_cases hbasis : j ∈ p.basis
  · rw [h.cleared j hbasis, zero_mul]
  · by_cases hmem : j ∈ barred
    · rw [hbarred j hmem, mul_zero]
    · exact mul_nonneg (hstrict j hj hbasis hmem).le (hx j hj)

include hw

/-- An admitted point that is no more expensive than the basic point is zero outside the basis. -/
theorem eq_zero_of_gap_le (hle : gap p.tableau.objective x ≤ gap p.tableau.objective p.point) :
    ∀ j < width, j ∉ p.basis → x j = 0 := by
  have hlen : p.tableau.objective.length = width + 1 := hw.width_eq
  have hterms : ∀ j ∈ Finset.range width, 0 ≤ p.tableau.objective.getD j 0 * x j :=
    fun j hj => h.cost_mul_nonneg hstrict hx hbarred (Finset.mem_range.mp hj)
  have hsum : ∑ j ∈ Finset.range width, p.tableau.objective.getD j 0 * x j = 0 := by
    rw [h.gap_objective_point hw, gap, formAt, hlen, Nat.add_sub_cancel] at hle
    exact le_antisymm (by linarith) (Finset.sum_nonneg hterms)
  intro j hj hbasis
  have hproduct := (Finset.sum_eq_zero_iff_of_nonneg hterms).mp hsum j (Finset.mem_range.mpr hj)
  by_cases hmem : j ∈ barred
  · exact hbarred j hmem
  · exact (mul_eq_zero.mp hproduct).resolve_left (hstrict j hj hbasis hmem).ne'

/-- An admitted solution that is no more expensive than the basic point is the basic point. -/
theorem eq_point_of_gap_le (hs : p.tableau.SolvedBy x)
    (hle : gap p.tableau.objective x ≤ gap p.tableau.objective p.point) :
    ∀ j < width, x j = p.point j :=
  h.eq_point hw hs (h.eq_zero_of_gap_le hw hstrict hx hbarred hle)

end Canonical

end Position

namespace Problem

variable {problem : Problem ℚ}

/-- The first entries of a point with its slack are the point. -/
theorem withoutSlack_withSlack {x : List ℚ} (h : x.length = problem.dimension) :
    problem.withoutSlack (problem.withSlack x) = x := by
  apply List.ext_getElem
  · simpa [withoutSlack] using h.symm
  · intro j hj hj'
    have hlt : j < problem.dimension := h ▸ hj'
    simp [withoutSlack, withSlack, hlt, hj']

/-- A position that agrees with the start tableau and is strict has the only optimal point. -/
theorem eq_solution_of_optimal (h : problem.fault? = none) {p : Position ℚ}
    (hregular : p.Regular (problem.dimension + problem.constraints.length) problem.idleColumns)
    (hagrees : problem.start.tableau.Agrees p.tableau)
    (hstrict : p.Strict (problem.dimension + problem.constraints.length) problem.idleColumns)
    (hoptimal : problem.Optimal (p.solution problem.dimension)) {y : List ℚ}
    (hy : problem.Optimal y) : y = p.solution problem.dimension := by
  have hsolved := solvedBy_withSlack h hy.toFeasible
  have hpoint := (hagrees.solvedBy_iff _).mpr
    (hregular.canonical.solvedBy_point hregular.hasWidth)
  have hbest := hy.best _ hoptimal.toFeasible
  rw [solution_eq_withoutSlack hregular.canonical.nodup] at hbest ⊢
  have hle : gap p.tableau.objective (problem.withSlack y) ≤ gap p.tableau.objective p.point := by
    rw [← hagrees.gap_eq _ hsolved, ← hagrees.gap_eq _ hpoint, gap_objective_withSlack,
      gap_objective_withoutSlack]
    exact not_lt.mp fun hlt => hbest ((Sense.improves_iff _ _ _).mpr hlt)
  have heq := hregular.canonical.eq_point_of_gap_le hregular.hasWidth hstrict
    (fun j _ => withSlack_nonneg hy.toFeasible j) (fun j hj => withSlack_of_idle hj y)
    ((hagrees.solvedBy_iff _).mp hsolved) hle
  calc
    y = problem.withoutSlack (problem.withSlack y) := (withoutSlack_withSlack hy.length_eq).symm
    _ = problem.withoutSlack p.point :=
      List.map_congr_left fun j hj => heq j (Nat.lt_add_right _ (List.mem_range.mp hj))

end Problem

/-- If the verdict is optimal without alternatives, the point that is read off the last position is
the optimal point of the problem, and there is no other. -/
theorem optimal_iff_eq_of_status_optimal {problem : Problem ℚ} {options : Options ℚ}
    (h : problem.fault? = none) (hrows : problem.constraints ≠ [])
    (htwo : options.twoPhase = true) (htol : options.tolerance = 0) :
    ∃ outcome, solve problem options = .ok (.solved outcome) ∧
      (outcome.report.status = .optimal →
        ∃ run, outcome.second = some run ∧
          ∀ x, problem.Optimal x ↔ x = run.last.solution problem.dimension) := by
  obtain ⟨outcome, hsolve, hcourse⟩ := exists_solve h hrows htwo
  refine ⟨outcome, hsolve, ?_⟩
  intro hstatus
  obtain ⟨first, reduced, run, hfirst, hentry, rfl, hsecond, hend, iterations, note, hreport⟩ :=
    hcourse.of_optimal (.inl hstatus)
  obtain ⟨hready, hagrees⟩ := Problem.ready_of_feasible h htol hfirst hentry
  have hoptimal := Problem.optimal_last_run h htol hready hagrees hend
  have hnone : (secondRun problem options reduced.position first.iterations).last.hasAlternatives
      problem.idleColumns options.tolerance = false := by
    rw [hreport, Report.status_withNote] at hstatus
    by_contra hflag
    simp [Position.report, hflag] at hstatus
  have hlast : (secondRun problem options reduced.position first.iterations).last.Regular _ _ :=
    hready.regular_last_run htol.ge _
  have hstrict := Position.strict_of_hasAlternatives_eq_false htol.ge hlast.hasWidth
    (fun _ hj hb => hready.cost_nonneg_last_run htol.ge (.of_eq_zero htol _ _) hend hj hb) hnone
  refine ⟨_, hsecond, ?_⟩
  intro x
  constructor
  · exact Problem.eq_solution_of_optimal h hlast
      (hagrees.trans (hready.agrees_last_run htol.ge _)) hstrict hoptimal
  · rintro rfl
    exact hoptimal

/-- Minimise `x + 2y` where `x + y = 2` is stated twice and `y ≥ 1`. -/
def Problem.repeated : Problem ℚ where
  objective := ⟨[1, 2], .minimise⟩
  constraints :=
    [{ coefficients := [1, 1], rhs := 2, relation := .equal },
      { coefficients := [1, 1], rhs := 2, relation := .equal },
      { coefficients := [0, 1], rhs := 1, relation := .atLeast }]

theorem optimal_iff_eq_repeated :
    ∃ outcome, solve .repeated { tolerance := 0 } = .ok (.solved outcome) ∧
      outcome.report.status = .optimal ∧ ∀ x, Problem.repeated.Optimal x ↔ x = [1, 1] := by
  obtain ⟨outcome, hsolve, hverdict⟩ :=
    @optimal_iff_eq_of_status_optimal .repeated { tolerance := 0 } (by decide +kernel)
      (by simp [Problem.repeated]) rfl rfl
  have hstatus : outcome.report.status = .optimal := status_of_solve hsolve (by decide +kernel)
  obtain ⟨run, hsecond, hunique⟩ := hverdict hstatus
  have hsolution : outcome.second.map (·.last.solution 2) = some [1, 1] :=
    eq_of_solve hsolve (fun o => o.second.map (·.last.solution 2)) (by decide +kernel)
  rw [hsecond, Option.map_some, Option.some.injEq] at hsolution
  exact ⟨outcome, hsolve, hstatus, fun x => hsolution ▸ hunique x⟩

end SimplexMethod
