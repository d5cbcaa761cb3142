import SimplexMethod.Proofs.Pivoting.Priced
import SimplexMethod.Proofs.Solve.Feasibility
import SimplexMethod.Proofs.Solve.Invariants
import SimplexMethod.Proofs.Solve.Routes

/-!
# The reported value

Whatever is tolerated and from whichever basis the costs are minimised, every position of the second
phase tells in its objective row what the point is worth that is read off it. The slack basis of a
single phase is priced as it stands, because slack columns cost nothing; the position after a first
phase is regular and has the costs installed, also if rows were dropped. What is reported of the
last position is rounded, and the reported value is that of the reported solution up to what is
rounded.
-/

namespace SimplexMethod

/-- The right-hand side of the objective row is what the point read off the position is worth; a
minimisation has it negated. -/
def Problem.Valued (problem : Problem ℚ) (p : Position ℚ) : Prop :=
  match problem.objective.sense with
  | .maximise => rhs p.tableau.objective = problem.value (p.solution problem.dimension)
  | .minimise => rhs p.tableau.objective = -problem.value (p.solution problem.dimension)

namespace Problem

variable {problem : Problem ℚ} {options : Options ℚ}

section Priced

variable {p : Position ℚ} {width : ℕ} (hp : p.Priced problem.objective.costs width)

include hp

theorem rhs_objective_of_priced :
    rhs p.tableau.objective
      = -(problem.objective.sense.sign * problem.value (p.solution problem.dimension)) := by
  rw [hp.rhs_objective, linearForm_costs, solution_eq_withoutSlack hp.nodup, value,
    dot_withoutSlack rfl]

theorem valued_of_priced : problem.Valued p := by
  have hrhs := rhs_objective_of_priced hp
  unfold Valued
  cases hs : problem.objective.sense with
  | maximise =>
    rw [hs, Sense.sign] at hrhs
    rw [hrhs]
    ring
  | minimise =>
    rw [hs, Sense.sign] at hrhs
    rw [hrhs]
    ring

end Priced

/-- The objective value of a valued position is what the point read off it is worth. -/
theorem Valued.objectiveValue_eq {p : Position ℚ} (h : problem.Valued p) :
    p.objectiveValue problem.objective.sense = problem.value (p.solution problem.dimension) := by
  unfold Valued at h
  unfold Position.objectiveValue
  cases hs : problem.objective.sense with
  | maximise =>
    rw [hs] at h
    exact h
  | minimise =>
    rw [hs] at h
    exact (congrArg (- ·) h).trans (neg_neg _)

/-- In the slack basis every column is zero outside its own row, whatever it is in that row. -/
theorem priced_start (h : problem.fault? = none) :
    problem.start.Priced problem.objective.costs
      (problem.dimension + problem.constraints.length) where
  toFramed := framed_start h
  nodup := List.nodup_range'
  entry_eq_zero := by
    intro i hi j hj hij
    have hcolumn : j < problem.constraints.length := by simpa using hj
    rw [List.getD_eq_getElem _ _ hj, basis_start]
    rcases Nat.lt_succ_iff_lt_or_eq.mp hi with hrow | rfl
    · rw [entry_start_slack h (by simpa using hrow) hcolumn, if_neg (Ne.symm hij)]
    · rw [Tableau.entry, Tableau.line_length, getD_objective_start (Nat.le_add_right _ _)]
  gap_eq := fun x _ => gap_objective_start problem x

/-- After the first phase the objective row states the costs on all solutions of the constraint
rows, also if rows were dropped. -/
theorem gap_objective_of_feasible (h : problem.fault? = none) (htol : 0 ≤ options.tolerance)
    {phase : FirstPhase ℚ} {reduced : Reduced ℚ}
    (hs : problem.start.Search options problem.idleColumns
      (problem.dimension + problem.constraints.length) phase)
    (hentry : phase.entry = .feasible reduced) {x : ℕ → ℚ}
    (hx : reduced.position.tableau.SolvedBy x) :
    gap reduced.position.tableau.objective x = linearForm problem.objective.costs x := by
  rcases hs.of_feasible hentry with ⟨hready, rfl⟩ | ⟨hlacks, -, -, rfl⟩
  · rw [Position.prepare_of_eq_nil hready, Position.objective_signed (length_basis_eq_rows problem),
      gap_objective_start]
  · have hclearing := clearing_firstRun h htol hlacks
    have hlen := (hasWidth_start h).width_eq
    rw [firstReduced_eq h hlacks] at hx ⊢
    have hagrees := Position.agrees_install hclearing.basicInRows_left
      hclearing.framed_left.hasWidth hlen
    rw [← hagrees.gap_eq x ((hagrees.solvedBy_iff x).mpr hx), gap_objective_start]

/-- The costs are minimised from a priced position. -/
theorem Enters.priced {start : Position ℚ} (henters : problem.Enters options start)
    (h : problem.fault? = none) (htol : 0 ≤ options.tolerance) :
    start.Priced problem.objective.costs (problem.dimension + problem.constraints.length) := by
  cases henters with
  | single => exact priced_start h
  | double _ hsearch hentry =>
    obtain ⟨hregular, -⟩ := regular_of_feasible h htol hsearch hentry
    exact hregular.priced fun _ => gap_objective_of_feasible h htol hsearch hentry

end Problem

section Values

variable {problem : Problem ℚ} {options : Options ℚ}

/-- Every position of the second phase tells what the point is worth that is read off it. -/
theorem Route.valued {outcome : Outcome ℚ} (hroute : Route problem options outcome)
    (h : problem.fault? = none) (htol : 0 ≤ options.tolerance) {position : Position ℚ}
    (hshows : outcome.Shows position) : problem.Valued position := by
  obtain ⟨start, henters, hvisits⟩ := hroute.exists_visits h hshows
  exact Problem.valued_of_priced ((henters.priced h htol).of_visits htol hvisits)

/-- In either mode every snapshot of the second phase and the position that an optimal report is read
off tell in their objective row what the point is worth that is read off them. -/
theorem valued_of_solve (htol : 0 ≤ options.tolerance) :
    (problem.fault? = none → problem.constraints ≠ [] →
      ∃ outcome, solve problem options = .ok (.solved outcome)) ∧
    ∀ outcome, solve problem options = .ok (.solved outcome) →
      (∀ snapshot ∈ outcome.history, snapshot.phase = 2 → problem.Valued snapshot.position) ∧
      (∀ run, outcome.second = some run → problem.Valued run.last) ∧
      (outcome.report.status = .optimal ∨ outcome.report.status = .optimalWithAlternatives →
        ∃ run iterations note, outcome.second = some run ∧
          outcome.report = (run.last.report problem.dimension problem.objective.sense iterations
            problem.idleColumns options.tolerance).withNote note) := by
  constructor
  · intro h hrows
    obtain ⟨outcome, hsolve, -⟩ := exists_solve_route h hrows options
    exact ⟨outcome, hsolve⟩
  · intro outcome hsolve
    obtain ⟨h, hroute⟩ := route_of_solve hsolve
    refine ⟨?_, ?_, ?_⟩
    · intro snapshot hmem hphase
      exact hroute.valued h htol (.snapshot hmem hphase)
    · intro run hsecond
      exact hroute.valued h htol (.last hsecond)
    · intro hstatus
      obtain ⟨run, iterations, note, hsecond, -, hreport⟩ := hroute.of_optimal hstatus
      exact ⟨run, iterations, note, hsecond, hreport⟩

/-- The slack basis of `retold` is not canonical: two of its columns are zero and one is negative. -/
theorem valued_retold :
    ∃ outcome run, solve .retold { twoPhase := false } = .ok (.solved outcome) ∧
      outcome.second = some run ∧ outcome.report.status = .optimal ∧
      outcome.history.map (fun snapshot => (snapshot.phase, snapshot.position.basis,
          rhs snapshot.position.tableau.objective, snapshot.position.solution 2))
        = [(2, [2, 3, 1], 2, [0, 1]), (2, [4, 3, 1], 4, [0, 2])] ∧
      (∀ snapshot ∈ outcome.history, snapshot.phase = 2 →
        Problem.retold.Valued snapshot.position) ∧
      Problem.retold.Valued run.last := by
  obtain ⟨hsolves, hvalued⟩ :=
    @valued_of_solve .retold { twoPhase := false } (by norm_num : (0 : ℚ) ≤ 1e-9)
  obtain ⟨outcome, hsolve⟩ := hsolves (by decide +kernel) (by simp [Problem.retold])
  obtain ⟨hhistory, hlast, hoptimal⟩ := hvalued outcome hsolve
  have hstatus : outcome.report.status = .optimal := status_of_solve hsolve (by decide +kernel)
  obtain ⟨run, -, -, hsecond, -⟩ := hoptimal (.inl hstatus)
  exact ⟨outcome, run, hsolve, hsecond, hstatus, eq_of_solve hsolve (fun o => o.history.map
    fun snapshot => (snapshot.phase, snapshot.position.basis,
      rhs snapshot.position.tableau.objective, snapshot.position.solution 2)) (by decide +kernel),
    hhistory, hlast run hsecond⟩

end Values

section Rounding

variable {problem : Problem ℚ} {options : Options ℚ} {outcome : Outcome ℚ}

/-- An optimal report states the point that is read off the last position and what that point is
worth, with zero for every number of magnitude below `10⁻¹²`. So the reported value is that of the
reported solution up to what was replaced by zero, and exactly if nothing was. -/
theorem exists_value_of_status_optimal (htol : 0 ≤ options.tolerance)
    (hsolve : solve problem options = .ok (.solved outcome))
    (hstatus : outcome.report.status = .optimal ∨
      outcome.report.status = .optimalWithAlternatives) :
    ∃ run x solution value, outcome.second = some run ∧
      run.last.solution problem.dimension = x ∧
      outcome.report.solution = some solution ∧ outcome.report.objectiveValue = some value ∧
      solution = x.map (fun v => if |v| < 1e-12 then 0 else v) ∧
      value = (if |problem.value x| < 1e-12 then 0 else problem.value x) ∧
      |value - problem.value solution|
        ≤ 1e-12 * (1 + (problem.objective.coefficients.map fun a => |a|).sum) ∧
      ((∀ v ∈ x, v = 0 ∨ 1e-12 ≤ |v|) → problem.value x = 0 ∨ 1e-12 ≤ |problem.value x| →
        value = problem.value solution) := by
  obtain ⟨h, hroute⟩ := route_of_solve hsolve
  obtain ⟨run, iterations, note, hsecond, -, hreport⟩ := hroute.of_optimal hstatus
  have hvalued := hroute.valued h htol (.last hsecond)
  refine ⟨run, _, _, _, hsecond, rfl, ?_, ?_, rfl, rfl, ?_, ?_⟩
  · rw [hreport, Report.solution_withNote, Position.solution_report]
  · rw [hreport, Report.objectiveValue_withNote, Position.objectiveValue_report,
      hvalued.objectiveValue_eq]
  · simp only [← Scalar.clean_eq]
    exact Scalar.abs_clean_dot_sub_le _ _
  · intro hpoint hvalue
    simp only [← Scalar.clean_eq]
    rw [Scalar.map_clean_eq_self hpoint, Scalar.clean_eq_self hvalue]

theorem exists_value_retold :
    ∃ outcome, solve .retold {} = .ok (.solved outcome) ∧ outcome.report.status = .optimal ∧
      outcome.report.solution = some [0, 2] ∧
      outcome.report.objectiveValue = some (Problem.retold.value [0, 2]) := by
  obtain ⟨outcome, hsolve, -⟩ := @exists_solve_route ℚ _ .retold (by decide +kernel)
    (by simp [Problem.retold]) {}
  have hstatus : outcome.report.status = .optimal := status_of_solve hsolve (by decide +kernel)
  obtain ⟨run, x, solution, value, hsecond, hx, hsolution, hvalue, rfl, -, -, hexact⟩ :=
    exists_value_of_status_optimal (by norm_num : (0 : ℚ) ≤ 1e-9) hsolve (.inl hstatus)
  have hlast : outcome.second.map (·.last.solution 2) = some [0, 2] :=
    eq_of_solve hsolve (fun o => o.second.map (·.last.solution 2)) (by decide +kernel)
  obtain rfl : [0, 2] = x := by
    rw [hsecond, Option.map_some, Option.some.injEq] at hlast
    exact hlast.symm.trans hx
  have hrounded : [0, 2].map (fun v => if |v| < 1e-12 then 0 else v) = ([0, 2] : List ℚ) := by
    decide +kernel
  rw [hrounded] at hsolution hexact
  rw [hexact (by norm_num) (by right; decide +kernel)] at hvalue
  exact ⟨outcome, hsolve, hstatus, hsolution, hvalue⟩

/-- Maximise `2⁴³ x` where `x ≤ 2⁻⁴³`. -/
def Problem.minute : Problem ℚ where
  objective := ⟨[8796093022208], .maximise⟩
  constraints := [{ coefficients := [1], rhs := 1 / 8796093022208, relation := .atMost }]

/-- A solution that is left out for being negligible may be worth one. -/
theorem value_ne_minute :
    ∃ outcome, solve .minute {} = .ok (.solved outcome) ∧ outcome.report.status = .optimal ∧
      outcome.report.solution = some [0] ∧ outcome.report.objectiveValue = some 1 ∧
      Problem.minute.value [0] ≠ 1 := by
  obtain ⟨outcome, hsolve, -⟩ := @exists_solve_route ℚ _ .minute (by decide +kernel)
    (by simp [Problem.minute]) {}
  refine ⟨outcome, hsolve, status_of_solve hsolve (by decide +kernel),
    eq_of_solve hsolve (·.report.solution) (by decide +kernel),
    eq_of_solve hsolve (·.report.objectiveValue) (by decide +kernel), ?_⟩
  decide +kernel

end Rounding

end SimplexMethod
