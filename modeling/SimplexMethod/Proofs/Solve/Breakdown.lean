import SimplexMethod.Proofs.Solve.Verdicts

/-!
# When the auxiliary problem is called unbounded

The sum of the artificial columns is never negative, so no first phase should end unbounded. Under a
tolerance one may: the entering test sees the sum of several rows, the ratio test each row by itself.
What the sum gains along a column is what the basic artificial columns lose, so this takes a
positive tolerance, two artificial columns at least, and a cost that is zero up to the tolerance for
each of them.
-/

namespace SimplexMethod

/-- If no entry of a column exceeds the bound, its cost is at least the negated bound for each
artificial column. -/
theorem Position.Restates.le_cost {q : Position ℚ} {u t : Tableau ℚ} {full width count : ℕ}
    (hq : q.Restates u full) (h : u.Extends t width count) {column : ℕ} (hc : column < full)
    {bound : ℚ} (hbound : 0 ≤ bound)
    (hentry : ∀ i < q.tableau.rows.length, q.tableau.entry i column ≤ bound) :
    -(bound * count) ≤ q.tableau.objective.getD column 0 := by
  calc
    -(bound * count) = ∑ _k ∈ Finset.range count, -bound := by
      rw [Finset.sum_const, Finset.card_range, nsmul_eq_mul]
      ring
    _ ≤ ∑ k ∈ Finset.range count, q.direction column (width + k) :=
      Finset.sum_le_sum fun k _ =>
        Position.neg_le_direction hq.canonical.length_eq hbound hentry (width + k)
    _ = q.tableau.objective.getD column 0 := (hq.cost_eq_sum h hc).symm

/-- The run takes its last column for one without limit although the cost of the column is zero up
to the tolerance for each of several artificial columns. -/
structure Run.BreaksDown (run : Run ℚ) (tolerance : ℚ) (count : ℕ) (column : ℕ) : Prop where
  ending_eq : run.ending = .unbounded column
  entry_le : ∀ i < run.last.tableau.rows.length, run.last.tableau.entry i column ≤ tolerance
  cost_lt : run.last.tableau.objective.getD column 0 < -tolerance
  le_cost : -(tolerance * count) ≤ run.last.tableau.objective.getD column 0

namespace Run.BreaksDown

variable {run : Run ℚ} {tolerance : ℚ} {count column : ℕ}
  (h : run.BreaksDown tolerance count column) (htol : 0 ≤ tolerance)

include h htol

theorem tolerance_pos : 0 < tolerance := by
  rcases htol.eq_or_lt with rfl | hpos
  · exact absurd (h.le_cost.trans_lt h.cost_lt) (by simp)
  · exact hpos

theorem two_le : 2 ≤ count := by
  have hlt : tolerance * 1 < tolerance * count := by
    have := h.le_cost.trans_lt h.cost_lt
    linarith
  have hcount : (1 : ℚ) < count := lt_of_mul_lt_mul_left hlt htol
  exact_mod_cast hcount

end Run.BreaksDown

/-- A first phase that ends unbounded has broken down. -/
theorem Problem.breaksDown_of_unbounded {problem : Problem ℚ} {options : Options ℚ}
    {phase : FirstPhase ℚ} (h : problem.fault? = none) (htol : 0 ≤ options.tolerance)
    (hs : problem.start.Search options problem.idleColumns
      (problem.dimension + problem.constraints.length) phase)
    (hentry : phase.entry = .unbounded) :
    ∃ run column, phase.run = some run ∧
      run.BreaksDown options.tolerance (problem.start.lackingRows options.tolerance).length
        column := by
  obtain ⟨hlacks, hrun, column, hend⟩ := hs.of_unbounded hentry
  refine ⟨_, column, hrun, ?_⟩
  have hrestates := restates_last_firstRun h htol hlacks
  rw [firstRun_eq h hlacks] at hend hrestates ⊢
  obtain ⟨hc, hcost, hle⟩ := (regular_auxiliary h).unlimited_last_run htol hend
  exact ⟨hend, hle, hcost, hrestates.le_cost (extends_auxiliary h) hc htol hle⟩

/-- The first phase of a solve is called unbounded only under a positive tolerance, with two
artificial columns or more, in a column whose cost is zero up to the tolerance for each of them. -/
theorem breaksDown_of_entry_unbounded {problem : Problem ℚ} {options : Options ℚ}
    (h : problem.fault? = none) (hrows : problem.constraints ≠ []) (htwo : options.twoPhase = true)
    (htol : 0 ≤ options.tolerance) :
    ∃ outcome first, solve problem options = .ok (.solved outcome) ∧
      outcome.first = some first ∧
      (first.entry = .unbounded →
        0 < options.tolerance ∧ 2 ≤ (problem.start.lackingRows options.tolerance).length ∧
          ∃ run column, first.run = some run ∧
            run.BreaksDown options.tolerance
              (problem.start.lackingRows options.tolerance).length column) := by
  obtain ⟨outcome, hsolve, hcourse⟩ := exists_solve h hrows htwo
  obtain ⟨first, hfirst, hsearch⟩ := hcourse.exists_first
  refine ⟨outcome, first, hsolve, hfirst, ?_⟩
  intro hentry
  obtain ⟨run, column, hrun, hbreaks⟩ := Problem.breaksDown_of_unbounded h htol hsearch hentry
  exact ⟨hbreaks.tolerance_pos htol, hbreaks.two_le htol, run, column, hrun, hbreaks⟩

/-- The first phase ended unbounded. -/
def Outcome.breaksDown (outcome : Outcome ℚ) : Bool :=
  match outcome.first with
  | some ⟨_, _, .unbounded⟩ => true
  | _ => false

theorem entry_eq_unbounded_of_breaksDown {outcome : Outcome ℚ} {first : FirstPhase ℚ}
    (hfirst : outcome.first = some first) (h : outcome.breaksDown = true) :
    first.entry = .unbounded := by
  obtain ⟨prepared, run, entry⟩ := first
  cases entry <;> simp_all [Outcome.breaksDown]

/-- Maximise `x` where `6 · 10⁻¹⁰ x = 1` is stated twice. -/
def Problem.faint : Problem ℚ where
  objective := ⟨[1], .maximise⟩
  constraints :=
    [{ coefficients := [6e-10], rhs := 1, relation := .equal },
      { coefficients := [6e-10], rhs := 1, relation := .equal }]

theorem breaksDown_faint :
    ∃ outcome first run column, solve .faint {} = .ok (.solved outcome) ∧
      outcome.first = some first ∧ first.entry = .unbounded ∧ first.run = some run ∧
      run.BreaksDown 1e-9 2 column := by
  obtain ⟨outcome, first, hsolve, hfirst, hverdict⟩ :=
    @breaksDown_of_entry_unbounded .faint {} (by decide +kernel) (by simp [Problem.faint]) rfl
      (by decide +kernel)
  have hentry := entry_eq_unbounded_of_breaksDown hfirst
    (eq_of_solve hsolve Outcome.breaksDown (by decide +kernel))
  obtain ⟨-, -, run, column, hrun, hbreaks⟩ := hverdict hentry
  exact ⟨outcome, first, run, column, hsolve, hfirst, hentry, hrun, hbreaks⟩

/-- The auxiliary problem is called unbounded although the problem has a feasible point. -/
theorem entry_unbounded_of_feasible :
    Problem.faint.Feasible [10 ^ 10 / 6] ∧
      ∃ outcome first, solve .faint {} = .ok (.solved outcome) ∧
        outcome.first = some first ∧ first.entry = .unbounded := by
  refine ⟨by decide +kernel, ?_⟩
  obtain ⟨outcome, hsolve, hcourse⟩ := @exists_solve _ _ .faint {}
    (by decide +kernel) (by simp [Problem.faint]) rfl
  obtain ⟨first, hfirst, -⟩ := hcourse.exists_first
  exact ⟨outcome, first, hsolve, hfirst, entry_eq_unbounded_of_breaksDown hfirst
    (eq_of_solve hsolve Outcome.breaksDown (by decide +kernel))⟩

end SimplexMethod
