import SimplexMethod.Proofs.Solve.Limit
import SimplexMethod.Proofs.Solve.Verdicts

/-!
# The three cases

A problem without fault has an optimal point, or feasible points of any value, or no feasible
point. The method itself decides which: given the budget it needs, its verdict is one of the three,
and right. A problem without rows is decided through the same problem with an empty row.
-/

namespace SimplexMethod

namespace Problem

variable {problem : Problem ℚ}

/-- The problem with one more row, which every point of the right length satisfies. -/
def withEmptyRow (problem : Problem ℚ) : Problem ℚ :=
  { problem with
    constraints :=
      { coefficients := List.replicate problem.dimension 0, rhs := 0, relation := .atMost }
        :: problem.constraints }

theorem fault?_withEmptyRow (h : problem.fault? = none) :
    problem.withEmptyRow.fault? = none := by
  obtain ⟨hpos, hobjective, hrows⟩ := fault?_eq_none_iff.mp h
  refine fault?_eq_none_iff.mpr ⟨hpos, hobjective, ?_⟩
  intro row hr
  rcases List.mem_cons.mp hr with rfl | hr
  · exact ⟨List.length_replicate, fun _ _ => rfl, rfl⟩
  · exact hrows row hr

theorem feasible_withEmptyRow_iff (x : List ℚ) :
    problem.withEmptyRow.Feasible x ↔ problem.Feasible x := by
  have hzero : dot (List.replicate problem.dimension 0) x = 0 := by
    rw [dot_eq_linearForm, linearForm_replicate_zero]
  constructor
  · intro h
    exact ⟨h.length_eq, h.nonneg, fun row hr => h.holds row (List.mem_cons_of_mem _ hr)⟩
  · intro h
    refine ⟨h.length_eq, h.nonneg, ?_⟩
    intro row hr
    rcases List.mem_cons.mp hr with rfl | hr
    · exact hzero.le
    · exact h.holds row hr

/-- With enough budget the method gives a verdict, and without a tolerance the verdict is right. -/
theorem exists_right (h : problem.fault? = none) (hrows : problem.constraints ≠ []) :
    ∃ status : Status, status ≠ .iterationLimit ∧ status.Right problem := by
  let options : Options ℚ :=
    { tolerance := 0, maxIterations := problem.firstBound + problem.secondBound }
  obtain ⟨outcome, hsolve, hstatus⟩ :=
    @exists_solve_status_ne_iterationLimit _ options h hrows rfl rfl (.inr rfl) le_rfl
  obtain ⟨outcome', hsolve', hcourse⟩ := @exists_solve _ _ _ options h hrows rfl
  obtain rfl : outcome = outcome' := by simpa using hsolve.symm.trans hsolve'
  exact ⟨_, hstatus, hcourse.right h le_rfl (.of_eq_zero rfl problem) (.of_eq_zero rfl problem)⟩

/-- A problem without fault has an optimal point, no feasible point, or feasible points of any
value. -/
theorem exists_optimal_or_infeasible_or_unbounded (h : problem.fault? = none) :
    (∃ x, problem.Optimal x) ∨ (∀ x, ¬ problem.Feasible x) ∨ problem.Unbounded := by
  obtain ⟨status, hlimit, hright⟩ := exists_right (fault?_withEmptyRow h) (List.cons_ne_nil _ _)
  have hoptimal : ∀ x, problem.withEmptyRow.Optimal x → problem.Optimal x := by
    intro x hx
    exact ⟨(feasible_withEmptyRow_iff x).mp hx.toFeasible,
      fun y hy => hx.best y ((feasible_withEmptyRow_iff y).mpr hy)⟩
  cases hright with
  | optimal hx => exact .inl ⟨_, hoptimal _ hx⟩
  | optimalWithAlternatives hx => exact .inl ⟨_, hoptimal _ hx⟩
  | infeasible hnone =>
    exact .inr (.inl fun x hx => hnone x ((feasible_withEmptyRow_iff x).mpr hx))
  | unbounded hunbounded =>
    refine .inr (.inr fun bound => ?_)
    obtain ⟨x, hx, himproves⟩ := hunbounded bound
    exact ⟨x, (feasible_withEmptyRow_iff x).mp hx, himproves⟩
  | iterationLimit => exact absurd rfl hlimit

end Problem

end SimplexMethod
