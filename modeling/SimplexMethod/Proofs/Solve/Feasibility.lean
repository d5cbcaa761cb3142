import SimplexMethod.Proofs.Phases.Resolution
import SimplexMethod.Proofs.Solve.Verdicts

/-!
# Feasibility up to a tolerance

Under a tolerance the basic point may turn a little negative, and the point that is reported has its
negligible entries replaced by zero. A row is then violated by no more than the basic point is
negative, apart from what was replaced. If the tolerance discerns the problem, the basic point is
not negative at all.
-/

namespace SimplexMethod

/-- The point violates the row by at most the slack. -/
def Constraint.HoldsWithin (row : Constraint ℚ) (slack : ℚ) (x : List ℚ) : Prop :=
  match row.relation with
  | .atMost => dot row.coefficients x ≤ row.rhs + slack
  | .atLeast => row.rhs - slack ≤ dot row.coefficients x
  | .equal => |dot row.coefficients x - row.rhs| ≤ slack

/-- The sum of the magnitudes of the coefficients of a row, or one if that is more. -/
def Constraint.weight (row : Constraint ℚ) : ℚ :=
  max 1 (row.coefficients.map fun a => |a|).sum

namespace Constraint

variable {row : Constraint ℚ} {slack change : ℚ} {x y : List ℚ}

/-- An equation whose slack variable is a little negative holds within that much. -/
theorem holdsWithin_of_add_slack {a : ℚ} (hslack : 0 ≤ slack) (ha : -slack ≤ a)
    (h : dot row.coefficients x + row.relation.slack * a = row.rhs) : row.HoldsWithin slack x := by
  unfold HoldsWithin
  cases hr : row.relation with
  | atMost =>
    simp only [hr, Relation.slack] at h ⊢
    linarith
  | atLeast =>
    simp only [hr, Relation.slack] at h ⊢
    linarith
  | equal =>
    simp only [hr, Relation.slack, zero_mul, add_zero] at h ⊢
    rwa [h, sub_self, abs_zero]

/-- Moving the point changes a violation by no more than it changes the linear form. -/
theorem HoldsWithin.move (h : row.HoldsWithin slack x)
    (hchange : |dot row.coefficients y - dot row.coefficients x| ≤ change) :
    row.HoldsWithin (slack + change) y := by
  obtain ⟨hlower, hupper⟩ := abs_le.mp hchange
  unfold HoldsWithin at h ⊢
  cases hr : row.relation with
  | atMost =>
    simp only [hr] at h ⊢
    linarith
  | atLeast =>
    simp only [hr] at h ⊢
    linarith
  | equal =>
    simp only [hr] at h ⊢
    obtain ⟨hleft, hright⟩ := abs_le.mp h
    exact abs_le.mpr ⟨by linarith, by linarith⟩

theorem HoldsWithin.mono {wider : ℚ} (h : row.HoldsWithin slack x) (hle : slack ≤ wider) :
    row.HoldsWithin wider x := by
  have hchange : |dot row.coefficients x - dot row.coefficients x| ≤ wider - slack := by
    simpa using hle
  have hmoved := h.move hchange
  rwa [add_sub_cancel] at hmoved

end Constraint

namespace Problem

variable {problem : Problem ℚ}

/-- No entry of the point is further below zero than the slack, and no row is violated by more than
the slack times its weight. -/
structure FeasibleWithin (problem : Problem ℚ) (slack : ℚ) (x : List ℚ) : Prop where
  length_eq : x.length = problem.dimension
  nonneg : ∀ v ∈ x, -slack ≤ v
  holds : ∀ row ∈ problem.constraints, row.HoldsWithin (slack * row.weight) x

theorem FeasibleWithin.mono {slack wider : ℚ} {x : List ℚ} (h : problem.FeasibleWithin slack x)
    (hle : slack ≤ wider) : problem.FeasibleWithin wider x where
  length_eq := h.length_eq
  nonneg := fun v hv => (neg_le_neg hle).trans (h.nonneg v hv)
  holds := fun row hr => (h.holds row hr).mono
    (mul_le_mul_of_nonneg_right hle (zero_le_one.trans (le_max_left _ _)))

/-- What is reported of a position that agrees with the start tableau is as infeasible as its
right-hand sides are negative. -/
theorem feasibleWithin_solution (h : problem.fault? = none) {p : Position ℚ}
    (hregular : p.Regular (problem.dimension + problem.constraints.length) problem.idleColumns)
    (hagrees : problem.start.tableau.Agrees p.tableau) {slack : ℚ} (hslack : 0 ≤ slack)
    (hrhs : ∀ row ∈ p.tableau.rows, -slack ≤ rhs row) :
    problem.FeasibleWithin (slack + 1e-12)
      ((p.solution problem.dimension).map Scalar.clean) := by
  have hpoint : ∀ j, -slack ≤ p.point j :=
    Position.neg_le_point hslack hrhs hregular.canonical.length_eq
  have hsolved := (hagrees.solvedBy_iff _).mpr
    (hregular.canonical.solvedBy_point hregular.hasWidth)
  rw [solution_eq_withoutSlack hregular.canonical.nodup]
  refine ⟨by simp [withoutSlack], ?_, ?_⟩
  · intro v hv
    obtain ⟨a, ha, rfl⟩ := List.mem_map.mp hv
    obtain ⟨j, -, rfl⟩ := List.mem_map.mp ha
    have := Scalar.neg_le_clean hslack (hpoint j)
    linarith
  · intro row hr
    obtain ⟨i, hi, rfl⟩ := List.mem_iff_getElem.mp hr
    have hgap := Tableau.solvedBy_iff.mp hsolved i (by simpa using hi)
    rw [gap_line_start h hi, ← dot_withoutSlack (length_coefficients h hr)] at hgap
    have hexact := Constraint.holdsWithin_of_add_slack hslack (hpoint (problem.dimension + i))
      (sub_eq_zero.mp hgap)
    apply (hexact.move (Scalar.abs_dot_clean_sub_le _ _)).mono
    have hone : slack ≤ slack * problem.constraints[i].weight :=
      le_mul_of_one_le_right hslack (le_max_left _ _)
    have hsum : 1e-12 * (problem.constraints[i].coefficients.map fun a => |a|).sum
        ≤ 1e-12 * problem.constraints[i].weight :=
      mul_le_mul_of_nonneg_left (le_max_right _ _) (by norm_num)
    rw [add_mul]
    exact add_le_add hone hsum

end Problem

section Verdict

variable {problem : Problem ℚ} {options : Options ℚ} {outcome : Outcome ℚ}

/-- What an optimal verdict reports is as infeasible as the last right-hand sides are negative,
unless rows were dropped. If the tolerance discerns the problem it is infeasible only by the entries
that were replaced by zero. -/
theorem Course.feasibleWithin (hcourse : Course problem options outcome)
    (h : problem.fault? = none) (htol : 0 ≤ options.tolerance)
    (hstatus : outcome.report.status = .optimal ∨
      outcome.report.status = .optimalWithAlternatives) :
    ∃ first reduced run x, outcome.first = some first ∧ first.entry = .feasible reduced ∧
      outcome.second = some run ∧ outcome.report.solution = some x ∧
      (reduced.dropped = [] → ∀ slack, 0 ≤ slack →
        (∀ row ∈ run.last.tableau.rows, -slack ≤ rhs row) →
          problem.FeasibleWithin (slack + 1e-12) x) ∧
      (problem.Discerned options.tolerance →
        problem.Feasible (run.last.solution problem.dimension) ∧
          problem.FeasibleWithin 1e-12 x) := by
  obtain ⟨first, reduced, run, hfirst, hsearch, hentry, rfl, hsecond, -, iterations, note,
    hreport⟩ := hcourse.phases_of_optimal hstatus
  have hsolution := Report.solution_withNote
    ((secondRun problem options reduced.position first.iterations).last.report problem.dimension
      problem.objective.sense iterations problem.idleColumns options.tolerance) note
  rw [← hreport] at hsolution
  refine ⟨first, reduced, _, _, hfirst, hentry, hsecond, hsolution, ?_, ?_⟩
  · intro hnone slack hslack hrhs
    obtain ⟨hregular, hagrees⟩ := Problem.regular_of_feasible h htol hsearch hentry
    exact Problem.feasibleWithin_solution h (hregular.regular_last_run htol _)
      ((hagrees hnone).trans (hregular.agrees_last_run htol _)) hslack hrhs
  · intro hd
    obtain ⟨hready, hagrees⟩ := Problem.ready_of_feasible_of_discerned h htol hsearch hd hentry
    have hlast : (secondRun problem options reduced.position first.iterations).last.Ready _ _ :=
      hready.last_run htol (hd.second.of_agrees hagrees) _
    refine ⟨Problem.feasible_last_run h htol hd hready hagrees _, ?_⟩
    have hwithin := Problem.feasibleWithin_solution h hlast.toRegular
      (hagrees.trans (hready.agrees_last_run htol _)) le_rfl
      fun row hr => neg_zero.trans_le (hlast.rhs_nonneg row hr)
    rwa [zero_add] at hwithin

/-- Under the default tolerance an optimal verdict reports a point that is as infeasible as the last
right-hand sides are negative, unless rows were dropped. If the tolerance discerns the problem, as it
does when it is below the resolution of the problem, the point read off the last position is
feasible, and the reported one is so up to the tolerance scaled with the largest bound. -/
theorem feasibleWithin_of_status_optimal (h : problem.fault? = none)
    (hrows : problem.constraints ≠ []) :
    (1e-9 < problem.resolution → problem.Discerned 1e-9) ∧
      ∃ outcome, solve problem {} = .ok (.solved outcome) ∧
        (outcome.report.status = .optimal ∨ outcome.report.status = .optimalWithAlternatives →
          ∃ first reduced run x, outcome.first = some first ∧ first.entry = .feasible reduced ∧
            outcome.second = some run ∧ outcome.report.solution = some x ∧
            (reduced.dropped = [] → ∀ slack, 0 ≤ slack →
              (∀ row ∈ run.last.tableau.rows, -slack ≤ rhs row) →
                problem.FeasibleWithin (slack + 1e-12) x) ∧
            (problem.Discerned 1e-9 →
              problem.Feasible (run.last.solution problem.dimension) ∧
                problem.FeasibleWithin (1e-9 * problem.scale) x)) := by
  have htol : (0 : ℚ) ≤ 1e-9 := by norm_num
  refine ⟨fun hlt => Problem.discerned_of_lt_resolution htol hlt h, ?_⟩
  obtain ⟨outcome, hsolve, hcourse⟩ := @exists_solve _ _ problem {} h hrows rfl
  refine ⟨outcome, hsolve, ?_⟩
  intro hstatus
  obtain ⟨first, reduced, run, x, hfirst, hentry, hsecond, hsolution, hnone, hdiscerned⟩ :=
    hcourse.feasibleWithin h htol hstatus
  refine ⟨first, reduced, run, x, hfirst, hentry, hsecond, hsolution, hnone, ?_⟩
  intro hd
  obtain ⟨hfeasible, hwithin⟩ := hdiscerned hd
  refine ⟨hfeasible, hwithin.mono ?_⟩
  calc
    (1e-12 : ℚ) ≤ 1e-9 * 1 := by norm_num
    _ ≤ 1e-9 * problem.scale := mul_le_mul_of_nonneg_left problem.one_le_scale htol

end Verdict

/-- Minimise `x + 2y` where `x + y ≥ 2` and `x = 1`. -/
def Problem.attained : Problem ℚ where
  objective := ⟨[1, 2], .minimise⟩
  constraints :=
    [{ coefficients := [1, 1], rhs := 2, relation := .atLeast },
      { coefficients := [1, 0], rhs := 1, relation := .equal }]

theorem feasibleWithin_attained :
    ∃ outcome x, solve .attained {} = .ok (.solved outcome) ∧ outcome.report.status = .optimal ∧
      outcome.report.solution = some x ∧ Problem.attained.FeasibleWithin 2e-9 x := by
  obtain ⟨hdiscerned, outcome, hsolve, hverdict⟩ :=
    @feasibleWithin_of_status_optimal .attained (by decide +kernel) (by simp [Problem.attained])
  have hstatus : outcome.report.status = .optimal := status_of_solve hsolve (by decide +kernel)
  obtain ⟨first, reduced, run, x, -, -, -, hsolution, -, hwithin⟩ := hverdict (.inl hstatus)
  have hscale : (1e-9 : ℚ) * Problem.attained.scale = 2e-9 := by decide +kernel
  exact ⟨outcome, x, hsolve, hstatus, hsolution,
    hscale ▸ (hwithin (hdiscerned (by decide +kernel))).2⟩

/-- Maximise `x` where `5 · 10⁻¹⁰ x ≤ 0` and `10⁻⁸ x ≤ 1`. -/
def Problem.shallow : Problem ℚ where
  objective := ⟨[1], .maximise⟩
  constraints :=
    [{ coefficients := [5e-10], rhs := 0, relation := .atMost },
      { coefficients := [1e-8], rhs := 1, relation := .atMost }]

/-- The ratio test passes over a row whose coefficient is small, and the row is then violated. -/
theorem not_feasibleWithin_shallow :
    ∃ outcome, solve .shallow {} = .ok (.solved outcome) ∧
      outcome.report.status = .optimal ∧ outcome.report.solution = some [1e8] ∧
      ¬ Problem.shallow.FeasibleWithin (1e-9 * Problem.shallow.scale) [1e8] := by
  obtain ⟨outcome, hsolve, -⟩ := @exists_solve _ _ .shallow {} (by decide +kernel)
    (by simp [Problem.shallow]) rfl
  refine ⟨outcome, hsolve, status_of_solve hsolve (by decide +kernel),
    eq_of_solve hsolve (·.report.solution) (by decide +kernel), ?_⟩
  intro hwithin
  have hfirst := hwithin.holds _ List.mem_cons_self
  revert hfirst
  rw [Constraint.HoldsWithin]
  decide +kernel

end SimplexMethod
