import SimplexMethod.Proofs.Phases.Entry
import SimplexMethod.Proofs.Rounding

/-!
# Verdicts

Without a tolerance every verdict of a solve in two phases is right: the solution of an optimal
verdict is an optimal point, an infeasible problem has no feasible point, and an unbounded one has
feasible points of any value.
-/

namespace SimplexMethod

namespace Problem

variable {problem : Problem ℚ}

/-- The solution of a position is its basic point without the slack. -/
theorem solution_eq_withoutSlack {p : Position ℚ} (h : p.basis.Nodup) :
    p.solution problem.dimension = problem.withoutSlack p.point := by
  apply List.ext_getElem
  · rw [Position.length_solution, withoutSlack, List.length_map, List.length_range]
  · intro j hj _
    have hlt : j < problem.dimension := by
      rwa [Position.length_solution] at hj
    rw [← List.getD_eq_getElem _ 0 hj, Position.getD_solution h hlt]
    simp [withoutSlack]

section SecondPhase

variable {options : Options ℚ} {budget : ℕ} (h : problem.fault? = none) {p : Position ℚ}

section Discerned

variable (htol : 0 ≤ options.tolerance) (hd : problem.Discerned options.tolerance)
  (hready : p.Ready (problem.dimension + problem.constraints.length) problem.idleColumns)
  (hagrees : problem.start.tableau.Agrees p.tableau)

include h htol hd hready hagrees

/-- A run of the second phase never leaves the feasible points. -/
theorem feasible_last_run (budget : ℕ) :
    problem.Feasible
      ((p.run options problem.idleColumns budget).last.solution problem.dimension) := by
  have hlast := hready.last_run htol (hd.second.of_agrees hagrees) budget
  rw [solution_eq_withoutSlack hlast.canonical.nodup]
  exact feasible_withoutSlack h
    ((hagrees.solvedBy_iff _).mpr (hready.solvedBy_last_point htol budget))
    fun j _ => hlast.point_nonneg j

/-- A run of the second phase that ends optimal gives an optimal point. -/
theorem optimal_last_run_of_discerned (hcosts : problem.CostsDiscerned options.tolerance)
    (hend : (p.run options problem.idleColumns budget).ending = .optimal) :
    problem.Optimal
      ((p.run options problem.idleColumns budget).last.solution problem.dimension) := by
  refine ⟨feasible_last_run h htol hd hready hagrees budget, ?_⟩
  have hlast := hready.regular_last_run htol budget
  have hsolved := (hagrees.solvedBy_iff _).mpr (hready.solvedBy_last_point htol budget)
  intro y hy himproves
  have hsolvedBy := solvedBy_withSlack h hy
  have hle := hready.gap_last_point_le htol (hcosts.second.of_agrees hagrees) hend
    ((hagrees.solvedBy_iff _).mp hsolvedBy) (fun j _ => withSlack_nonneg hy j)
    (fun j hj => withSlack_of_idle hj y)
  rw [solution_eq_withoutSlack hlast.canonical.nodup] at himproves
  rw [← hagrees.gap_eq _ hsolved, ← hagrees.gap_eq _ hsolvedBy, gap_objective_withoutSlack,
    gap_objective_withSlack] at hle
  exact absurd ((Sense.improves_iff _ _ _).mp himproves) (not_lt.mpr hle)

/-- A run of the second phase that ends unbounded gives feasible points of any value. -/
theorem unbounded_of_run_of_discerned {column : ℕ}
    (hend : (p.run options problem.idleColumns budget).ending = .unbounded column) :
    problem.Unbounded := by
  intro bound
  obtain ⟨x, hs, hx, hlt⟩ := hready.exists_gap_lt htol (hd.second.of_agrees hagrees) hend
    (problem.objective.sense.sign * bound)
  have hsolved := (hagrees.solvedBy_iff x).mpr hs
  refine ⟨problem.withoutSlack x, feasible_withoutSlack h hsolved fun j _ => hx j, ?_⟩
  rwa [Sense.improves_iff, ← gap_objective_withoutSlack, hagrees.gap_eq x hsolved]

end Discerned

section Exact

variable (htol : options.tolerance = 0)
  (hready : p.Ready (problem.dimension + problem.constraints.length) problem.idleColumns)
  (hagrees : problem.start.tableau.Agrees p.tableau)

include h htol hready hagrees

/-- Without a tolerance a run of the second phase that ends optimal gives an optimal point. -/
theorem optimal_last_run
    (hend : (p.run options problem.idleColumns budget).ending = .optimal) :
    problem.Optimal
      ((p.run options problem.idleColumns budget).last.solution problem.dimension) :=
  optimal_last_run_of_discerned h htol.ge (.of_eq_zero htol problem) hready hagrees
    (.of_eq_zero htol problem) hend

/-- Without a tolerance a run of the second phase that ends unbounded gives feasible points of any
value. -/
theorem unbounded_of_run {column : ℕ}
    (hend : (p.run options problem.idleColumns budget).ending = .unbounded column) :
    problem.Unbounded :=
  unbounded_of_run_of_discerned h htol.ge (.of_eq_zero htol problem) hready hagrees hend

end Exact

end SecondPhase

end Problem

/-- What a verdict says of a problem. The iteration limit says nothing. -/
inductive Status.Right (problem : Problem ℚ) : Status → Prop where
  | optimal {x : List ℚ} (h : problem.Optimal x) : Right problem .optimal
  | optimalWithAlternatives {x : List ℚ} (h : problem.Optimal x) :
      Right problem .optimalWithAlternatives
  | infeasible (h : ∀ x, ¬ problem.Feasible x) : Right problem .infeasible
  | unbounded (h : problem.Unbounded) : Right problem .unbounded
  | iterationLimit : Right problem .iterationLimit

/-- Every verdict on a problem that the tolerance discerns is right. -/
theorem Course.right {problem : Problem ℚ} {options : Options ℚ} {outcome : Outcome ℚ}
    (hcourse : Course problem options outcome) (h : problem.fault? = none)
    (htol : 0 ≤ options.tolerance) (hd : problem.Discerned options.tolerance)
    (hcosts : problem.CostsDiscerned options.tolerance) :
    outcome.report.status.Right problem := by
  cases hcourse with
  | stopped _ _ hstatus =>
    rw [hstatus]
    exact .iterationLimit
  | infeasible hfirst hentry hstatus =>
    rw [hstatus]
    exact .infeasible fun x =>
      Problem.not_feasible_of_infeasible_of_discerned h htol hfirst hcosts hentry x
  | unbounded hfirst hentry _ =>
    exact absurd hentry (Problem.entry_ne_unbounded_of_discerned h htol hfirst hd)
  | second hfirst hentry hreport =>
    obtain ⟨hready, hagrees⟩ := Problem.ready_of_feasible_of_discerned h htol hfirst hd hentry
    cases hreport with
    | optimal hend _ hstatus =>
      have hoptimal := Problem.optimal_last_run_of_discerned h htol hd hready hagrees hcosts hend
      rcases hstatus with hstatus | hstatus
      · rw [hstatus]
        exact .optimal hoptimal
      · rw [hstatus]
        exact .optimalWithAlternatives hoptimal
    | unbounded hend hstatus =>
      rw [hstatus]
      exact .unbounded (Problem.unbounded_of_run_of_discerned h htol hd hready hagrees hend)
    | stopped _ hstatus =>
      rw [hstatus]
      exact .iterationLimit

/-- The phases of a solve, if there was one. -/
def Answer.outcome? : Answer ℚ → Option (Outcome ℚ)
  | .solved outcome => some outcome
  | _ => none

/-- Whatever is read off the outcome of a solve, as it is computed. -/
theorem eq_of_solve {problem : Problem ℚ} {options : Options ℚ} {outcome : Outcome ℚ}
    (hsolve : solve problem options = .ok (.solved outcome)) {β : Type} (f : Outcome ℚ → β) {b : β}
    (h : ((solve problem options).toOption.bind Answer.outcome?).map f = some b) :
    f outcome = b := by
  rw [hsolve] at h
  exact Option.some.inj h

/-- The verdict of a solve, as it is computed. -/
theorem status_of_solve {problem : Problem ℚ} {options : Options ℚ} {outcome : Outcome ℚ}
    {status : Status} (hsolve : solve problem options = .ok (.solved outcome))
    (h : ((solve problem options).toOption.bind Answer.result?).map (·.report.status)
      = some status) : outcome.report.status = status := by
  rw [hsolve] at h
  exact Option.some.inj h

section Verdicts

variable {problem : Problem ℚ} {options : Options ℚ}

/-- If the verdict is optimal, the solution read off the last position is an optimal point of the
problem, and it is reported with zero for every entry of magnitude below `10⁻¹²`. -/
theorem optimal_of_status_optimal (h : problem.fault? = none)
    (hrows : problem.constraints ≠ []) (htwo : options.twoPhase = true)
    (htol : options.tolerance = 0) :
    ∃ outcome, solve problem options = .ok (.solved outcome) ∧
      (outcome.report.status = .optimal ∨ outcome.report.status = .optimalWithAlternatives →
        ∃ run, outcome.second = some run ∧
          problem.Optimal (run.last.solution problem.dimension) ∧
          outcome.report.solution
            = some ((run.last.solution problem.dimension).map fun v =>
                if |v| < 1e-12 then 0 else v)) := by
  obtain ⟨outcome, hsolve, hcourse⟩ := exists_solve h hrows htwo
  refine ⟨outcome, hsolve, ?_⟩
  intro hstatus
  obtain ⟨first, reduced, run, hfirst, hentry, hrun, hsecond, hend, iterations, note, hreport⟩ :=
    hcourse.of_optimal hstatus
  obtain ⟨hready, hagrees⟩ := Problem.ready_of_feasible h htol hfirst hentry
  refine ⟨run, hsecond, ?_, ?_⟩
  · subst hrun
    exact Problem.optimal_last_run h htol hready hagrees hend
  · rw [hreport, Report.solution_withNote, Position.solution_report]

/-- Minimise `x + 2y` where `x + y ≥ 2` and `x = 10⁻¹³`. -/
def Problem.speck : Problem ℚ where
  objective := ⟨[1, 2], .minimise⟩
  constraints :=
    [{ coefficients := [1, 1], rhs := 2, relation := .atLeast },
      { coefficients := [1, 0], rhs := 1e-13, relation := .equal }]

/-- The first entry of the optimal point is reported as zero. -/
theorem optimal_speck :
    ∃ outcome, solve .speck { tolerance := 0 } = .ok (.solved outcome) ∧
      outcome.report.status = .optimal ∧ Problem.speck.Optimal [1e-13, 2 - 1e-13] ∧
      outcome.report.solution = some [0, 2 - 1e-13] := by
  obtain ⟨outcome, hsolve, hverdict⟩ := @optimal_of_status_optimal .speck { tolerance := 0 }
    (by decide +kernel) (by simp [Problem.speck]) rfl rfl
  have hstatus : outcome.report.status = .optimal := status_of_solve hsolve (by decide +kernel)
  obtain ⟨run, hsecond, hoptimal, hreported⟩ := hverdict (.inl hstatus)
  have hlast : outcome.second.map (·.last.solution 2) = some [1e-13, 2 - 1e-13] :=
    eq_of_solve hsolve (fun o => o.second.map (·.last.solution 2)) (by decide +kernel)
  have hpoint : run.last.solution Problem.speck.dimension = [1e-13, 2 - 1e-13] := by
    rw [hsecond] at hlast
    exact Option.some.inj hlast
  rw [hpoint] at hoptimal hreported
  exact ⟨outcome, hsolve, hstatus, hoptimal, hreported.trans (by decide +kernel)⟩

/-- If the verdict is infeasible, no point is feasible. -/
theorem not_feasible_of_status_infeasible (h : problem.fault? = none)
    (hrows : problem.constraints ≠ []) (htwo : options.twoPhase = true)
    (htol : options.tolerance = 0) :
    ∃ outcome, solve problem options = .ok (.solved outcome) ∧
      (outcome.report.status = .infeasible → ∀ x, ¬ problem.Feasible x) := by
  obtain ⟨outcome, hsolve, hcourse⟩ := exists_solve h hrows htwo
  refine ⟨outcome, hsolve, ?_⟩
  intro hstatus
  obtain ⟨first, sum, hfirst, hentry⟩ := hcourse.of_infeasible hstatus
  exact Problem.not_feasible_of_infeasible h htol hfirst hentry

/-- Maximise `x` where `x ≤ 1` and `x ≥ 2`. -/
def Problem.contradictory : Problem ℚ where
  objective := ⟨[1], .maximise⟩
  constraints :=
    [{ coefficients := [1], rhs := 1, relation := .atMost },
      { coefficients := [1], rhs := 2, relation := .atLeast }]

theorem not_feasible_contradictory :
    ∃ outcome, solve .contradictory { tolerance := 0 } = .ok (.solved outcome) ∧
      outcome.report.status = .infeasible ∧ ∀ x, ¬ Problem.contradictory.Feasible x := by
  obtain ⟨outcome, hsolve, hverdict⟩ :=
    @not_feasible_of_status_infeasible .contradictory { tolerance := 0 } (by decide +kernel)
      (by simp [Problem.contradictory]) rfl rfl
  have hstatus : outcome.report.status = .infeasible :=
    status_of_solve hsolve (by decide +kernel)
  exact ⟨outcome, hsolve, hstatus, hverdict hstatus⟩

/-- If the verdict is unbounded, feasible points improve on every bound. -/
theorem unbounded_of_status_unbounded (h : problem.fault? = none)
    (hrows : problem.constraints ≠ []) (htwo : options.twoPhase = true)
    (htol : options.tolerance = 0) :
    ∃ outcome, solve problem options = .ok (.solved outcome) ∧
      (outcome.report.status = .unbounded → problem.Unbounded) := by
  obtain ⟨outcome, hsolve, hcourse⟩ := exists_solve h hrows htwo
  refine ⟨outcome, hsolve, ?_⟩
  intro hstatus
  obtain ⟨first, hfirst, hentry | ⟨reduced, column, hentry, hend⟩⟩ :=
    hcourse.of_unbounded hstatus
  · exact absurd hentry (Problem.entry_ne_unbounded h htol hfirst)
  · obtain ⟨hready, hagrees⟩ := Problem.ready_of_feasible h htol hfirst hentry
    exact Problem.unbounded_of_run h htol hready hagrees hend

/-- Maximise `x + y` where `x - y = 1`. -/
def Problem.unlimited : Problem ℚ where
  objective := ⟨[1, 1], .maximise⟩
  constraints := [{ coefficients := [1, -1], rhs := 1, relation := .equal }]

theorem unbounded_unlimited :
    ∃ outcome, solve .unlimited { tolerance := 0 } = .ok (.solved outcome) ∧
      outcome.report.status = .unbounded ∧ Problem.unlimited.Unbounded := by
  obtain ⟨outcome, hsolve, hverdict⟩ :=
    @unbounded_of_status_unbounded .unlimited { tolerance := 0 } (by decide +kernel)
      (by simp [Problem.unlimited]) rfl rfl
  have hstatus : outcome.report.status = .unbounded :=
    status_of_solve hsolve (by decide +kernel)
  exact ⟨outcome, hsolve, hstatus, hverdict hstatus⟩

end Verdicts

end SimplexMethod
