import Mathlib.Data.Nat.Choose.Bounds
import SimplexMethod.Proofs.Phases.Entry
import SimplexMethod.Proofs.Pivoting.Termination

/-!
# The iteration limit

Without a tolerance, a run under Bland's rule or under the cycle guard ends by itself, and so does
a solve in two phases: for each problem there is a budget with which no such solve reports the
iteration limit.
-/

namespace SimplexMethod

/-- A bound for any number of rows. -/
theorem pivotBound_le {width rows : ℕ} (hpos : 0 < width) (h : rows ≤ width) :
    pivotBound width rows ≤ width ^ width + 2 ^ width := by
  apply Nat.add_le_add
  · calc
      width.descFactorial rows ≤ width ^ rows := Nat.descFactorial_le_pow _ _
      _ ≤ width ^ width := Nat.pow_le_pow_right hpos h
  · exact Nat.choose_le_two_pow _ _

namespace Problem

variable {problem : Problem ℚ} {options : Options ℚ} {phase : FirstPhase ℚ}

/-- More pivots than a watched first phase can make. -/
def firstBound (problem : Problem ℚ) : ℕ :=
  pivotBound (problem.dimension + problem.constraints.length
    + (problem.start.lackingRows 0).length) problem.constraints.length

/-- More pivots than a watched second phase can make, whatever rows were dropped. -/
def secondBound (problem : Problem ℚ) : ℕ :=
  (problem.dimension + problem.constraints.length)
      ^ (problem.dimension + problem.constraints.length)
    + 2 ^ (problem.dimension + problem.constraints.length)

variable (h : problem.fault? = none) (htol : options.tolerance = 0)
  (hrule : options.rule = .bland ∨ options.cycleGuard = true)

include h htol hrule

theorem firstRun_bounded (hlacks : problem.start.lackingRows options.tolerance ≠ []) :
    (problem.start.firstRun options problem.idleColumns).iterations < problem.firstBound ∧
      (problem.firstBound ≤ options.maxIterations →
        (problem.start.firstRun options problem.idleColumns).ending ≠ .stopped) := by
  have hready := ready_auxiliary h htol.ge (Discerned.of_eq_zero htol problem).bounds
  have hbound : pivotBound (problem.dimension + problem.constraints.length
        + (problem.start.lackingRows options.tolerance).length)
      (problem.auxiliary options.tolerance).tableau.rows.length = problem.firstBound := by
    rw [length_rows_auxiliary, htol, firstBound]
  rw [firstRun_eq h hlacks]
  constructor
  · exact (hready.iterations_lt htol hrule _).trans_eq hbound
  · intro hle hstopped
    rcases hready.ending_of_le_budget htol hrule _ (hbound.trans_le hle) with hend | ⟨_, hend⟩
    · exact absurd (hend.symm.trans hstopped) nofun
    · exact absurd (hend.symm.trans hstopped) nofun

/-- A position of the second phase starts a run that ends by itself. -/
theorem secondRun_bounded {p : Position ℚ}
    (hready : p.Ready (problem.dimension + problem.constraints.length) problem.idleColumns)
    {budget : ℕ} (hle : problem.secondBound ≤ budget) :
    (p.run options problem.idleColumns budget).ending ≠ .stopped := by
  have hpos : 0 < problem.dimension + problem.constraints.length :=
    Nat.add_pos_left (dimension_pos h) _
  have hbound := (pivotBound_le hpos hready.length_rows_le).trans hle
  intro hstopped
  rcases hready.ending_of_le_budget htol hrule budget hbound with hend | ⟨_, hend⟩
  · exact absurd (hend.symm.trans hstopped) nofun
  · exact absurd (hend.symm.trans hstopped) nofun

variable (hs : problem.start.Search options problem.idleColumns
  (problem.dimension + problem.constraints.length) phase)

include hs

theorem iterations_first_le : phase.iterations ≤ problem.firstBound := by
  rw [FirstPhase.iterations]
  cases hrun : phase.run with
  | none => exact Nat.zero_le _
  | some run =>
    obtain ⟨hlacks, rfl⟩ := hs.of_run hrun
    exact (firstRun_bounded h htol hrule hlacks).1.le

theorem entry_ne_stopped (hle : problem.firstBound ≤ options.maxIterations) :
    phase.entry ≠ .stopped := by
  intro hentry
  obtain ⟨hlacks, hend⟩ := hs.of_stopped hentry
  exact (firstRun_bounded h htol hrule hlacks).2 hle hend

end Problem

/-- With a large enough budget the iteration limit is not reported. -/
theorem exists_solve_status_ne_iterationLimit {problem : Problem ℚ} {options : Options ℚ}
    (h : problem.fault? = none) (hrows : problem.constraints ≠ [])
    (htwo : options.twoPhase = true) (htol : options.tolerance = 0)
    (hrule : options.rule = .bland ∨ options.cycleGuard = true)
    (hle : problem.firstBound + problem.secondBound ≤ options.maxIterations) :
    ∃ outcome, solve problem options = .ok (.solved outcome) ∧
      outcome.report.status ≠ .iterationLimit := by
  obtain ⟨outcome, hsolve, hcourse⟩ := exists_solve h hrows htwo
  refine ⟨outcome, hsolve, ?_⟩
  intro hstatus
  obtain ⟨first, hfirst, hentry | ⟨reduced, hentry, hend⟩⟩ := hcourse.of_iterationLimit hstatus
  · exact Problem.entry_ne_stopped h htol hrule hfirst (by omega) hentry
  · obtain ⟨hready, -⟩ := Problem.ready_of_feasible h htol hfirst hentry
    have hfew := Problem.iterations_first_le h htol hrule hfirst
    exact Problem.secondRun_bounded h htol hrule hready (by omega) hend

/-- From a canonical position with a non-negative basic point no run under Bland's rule meets the
same set of basic columns twice, and a run under that rule or the cycle guard makes no more pivots
than there are lists and sets of basic columns. So a solve is only stopped for want of budget. -/
theorem run_ends :
    (∀ (p : Position ℚ) (options : Options ℚ) (barred : List ℕ) (width budget : ℕ),
      p.tableau.HasWidth (width + 1) → p.Canonical → (∀ row ∈ p.tableau.rows, 0 ≤ rhs row) →
      (∀ column ∈ p.basis, column ∉ barred) → options.tolerance = 0 →
      (options.rule = .bland →
        ((p :: (p.run options barred budget).pivots.map (·.after)).map
          (·.basis.toFinset)).Nodup) ∧
      (options.rule = .bland ∨ options.cycleGuard = true →
        (p.run options barred budget).iterations
          ≤ width.factorial / (width - p.tableau.rows.length).factorial
            + width.choose p.tableau.rows.length ∧
        (width.factorial / (width - p.tableau.rows.length).factorial
            + width.choose p.tableau.rows.length ≤ budget →
          (p.run options barred budget).ending = .optimal ∨
            ∃ column, (p.run options barred budget).ending = .unbounded column))) ∧
    ∀ problem : Problem ℚ, problem.fault? = none → problem.constraints ≠ [] →
      ∃ bound, ∀ options : Options ℚ, options.twoPhase = true → options.tolerance = 0 →
        (options.rule = .bland ∨ options.cycleGuard = true) → bound ≤ options.maxIterations →
        ∃ outcome, solve problem options = .ok (.solved outcome) ∧
          outcome.report.status ≠ .iterationLimit := by
  constructor
  · intro p options barred width budget hwidth hcanonical hrhs hfree htol
    have hready : p.Ready width barred := ⟨⟨hwidth, hcanonical, hfree⟩, hrhs⟩
    rw [← Nat.descFactorial_eq_div hready.length_rows_le]
    exact ⟨fun hrule => hready.nodup_toFinset_basis htol hrule budget,
      fun hrule => ⟨(hready.iterations_lt htol hrule budget).le,
        hready.ending_of_le_budget htol hrule budget⟩⟩
  · intro problem h hrows
    exact ⟨problem.firstBound + problem.secondBound, fun options htwo htol hrule hle =>
      exists_solve_status_ne_iterationLimit h hrows htwo htol hrule hle⟩

/-- Beale's problem, on which the steepest cost with ties broken by row number cycles. -/
def Problem.beale : Problem ℚ where
  objective := ⟨[-3 / 4, 20, -1 / 2, 6], .minimise⟩
  constraints :=
    [{ coefficients := [1 / 4, -8, -1, 9], rhs := 0, relation := .atMost },
      { coefficients := [1 / 2, -12, -1 / 2, 3], rhs := 0, relation := .atMost },
      { coefficients := [0, 0, 1, 0], rhs := 1, relation := .atMost }]

theorem run_ends_beale :
    (((⟨Problem.beale.start.signed 0, Problem.beale.start.basis⟩ : Position ℚ)
        :: (Position.run ⟨Problem.beale.start.signed 0, Problem.beale.start.basis⟩
          { tolerance := 0, rule := .bland } [] 245).pivots.map (·.after)).map
        (·.basis.toFinset)).Nodup ∧
      ((Position.run ⟨Problem.beale.start.signed 0, Problem.beale.start.basis⟩
          { tolerance := 0 } [] 245).ending = .optimal ∨
        ∃ column, (Position.run ⟨Problem.beale.start.signed 0, Problem.beale.start.basis⟩
          { tolerance := 0 } [] 245).ending = .unbounded column) ∧
      ∃ bound outcome, solve .beale { maxIterations := bound, tolerance := 0 }
          = .ok (.solved outcome) ∧ outcome.report.status ≠ .iterationLimit := by
  have hfault : Problem.beale.fault? = none := by decide +kernel
  have hready := Problem.ready_signed hfault (by decide +kernel)
  have hrun := fun options => run_ends.1 ⟨Problem.beale.start.signed 0, Problem.beale.start.basis⟩
    options [] 7 245 hready.hasWidth hready.canonical hready.rhs_nonneg (by simp)
  obtain ⟨bound, hsolve⟩ := run_ends.2 .beale hfault (by simp [Problem.beale])
  refine ⟨(hrun { tolerance := 0, rule := .bland } rfl).1 rfl,
    ((hrun { tolerance := 0 } rfl).2 (.inr rfl)).2 (by decide +kernel), bound, ?_⟩
  exact hsolve { maxIterations := bound, tolerance := 0 } rfl rfl (.inr rfl) le_rfl

end SimplexMethod
