import SimplexMethod.Proofs.Phases.Scaling
import SimplexMethod.Proofs.Rounding
import SimplexMethod.Proofs.Solve.Invariants
import SimplexMethod.Proofs.Solve.Routes

/-!
# Scaling the objective

If nothing is tolerated, a problem whose objective is multiplied by a positive number is solved by
the same pivots. The first phase does not read the objective; in the second phase and in a single
one every objective row is multiplied, and so is the value that an optimal report states rounded.
-/

namespace SimplexMethod

variable {factor : ℚ}

/-- The problem with its objective multiplied. -/
def Problem.scaled (problem : Problem ℚ) (factor : ℚ) : Problem ℚ :=
  { problem with
    objective := { problem.objective with
      coefficients := scaleBy factor problem.objective.coefficients } }

namespace Problem

variable (problem : Problem ℚ) (factor : ℚ)

@[simp] theorem dimension_scaled : (problem.scaled factor).dimension = problem.dimension :=
  length_scaleBy factor _

theorem costs_scaled :
    (problem.scaled factor).objective.costs = scaleBy factor problem.objective.costs := by
  cases hsense : problem.objective.sense with
  | minimise => simp [Objective.costs, scaled, hsense]
  | maximise => simp [Objective.costs, scaled, hsense, scaleBy]

theorem start_scaled : (problem.scaled factor).start = problem.start.scaled factor := by
  have hobjective : (problem.scaled factor).start.tableau.objective
      = scaleBy factor problem.start.tableau.objective := by
    rw [start, costs_scaled, start, scaleBy, scaleBy, List.map_append, List.map_replicate,
      mul_zero]
    rfl
  have hbasis : (problem.scaled factor).start.basis = problem.start.basis := by
    rw [start, dimension_scaled]
    rfl
  rw [Position.mk.injEq, Tableau.mk.injEq]
  exact ⟨⟨rfl, hobjective⟩, hbasis⟩

theorem idleColumns_scaled : (problem.scaled factor).idleColumns = problem.idleColumns := by
  rw [idleColumns, dimension_scaled]
  rfl

variable {problem}

theorem fault?_scaled (h : problem.fault? = none) : (problem.scaled factor).fault? = none := by
  obtain ⟨hpos, -, hrows⟩ := fault?_eq_none_iff.mp h
  refine fault?_eq_none_iff.mpr ⟨?_, fun _ _ => rfl, ?_⟩
  · rwa [dimension_scaled]
  · rwa [dimension_scaled]

end Problem

section FirstPhase

/-- What the first phase finds, with scaled costs. -/
def Entry.scaled (entry : Entry ℚ) (factor : ℚ) : Entry ℚ :=
  match entry with
  | .feasible reduced => .feasible { reduced with position := reduced.position.scaled factor }
  | .infeasible sum => .infeasible sum
  | .unbounded => .unbounded
  | .stopped => .stopped

/-- The costs that the second phase starts with are scaled. -/
theorem Position.installAt_scaled {p start : Position ℚ} {width : ℕ} (h : p.Framed width)
    (hstart : start.Framed width) (hne : factor ≠ 0) :
    p.installAt (start.scaled factor).tableau.objective
      = .ok ((p.install start.tableau.objective).scaled factor) := by
  rw [h.installAt_eq_ok (hstart.scaled factor).hasWidth.width_eq,
    ← install_scaleBy h hne hstart.hasWidth.width_eq]
  rfl

variable {start : Position ℚ} {width : ℕ} (h : start.Framed width) {options : Options ℚ}
  {barred : List ℕ} {one : FirstPhase ℚ}
  (hone : firstPhase start options barred = .ok one)

include h hone

theorem firstPhase_scaled_of_eq_nil (hready : start.lackingRows options.tolerance = []) :
    ∃ other, firstPhase (start.scaled factor) options barred = .ok other ∧
      other.run = one.run ∧ other.entry = one.entry.scaled factor := by
  have hready' := (Position.lackingRows_scaled h factor options.tolerance).trans hready
  rw [h.firstPhase_eq_of_nil options hready] at hone
  obtain rfl := Except.ok.inj hone
  refine ⟨_, (h.scaled factor).firstPhase_eq_of_nil options hready' barred, rfl, ?_⟩
  rw [Position.prepare_scaled_of_eq_nil h hready]
  rfl

/-- Both prepare the same position, so they part only where the costs are installed. -/
theorem firstPhase_scaled_of_ne_nil (hne : factor ≠ 0)
    (hlacks : start.lackingRows options.tolerance ≠ []) :
    ∃ other, firstPhase (start.scaled factor) options barred = .ok other ∧
      other.run = one.run ∧ other.entry = one.entry.scaled factor := by
  have hempty : (start.prepare options.tolerance).artificial.isEmpty = false := by
    rw [Position.prepare_of_ne_nil h.hasWidth hlacks]
    simpa using hlacks
  rw [firstPhase, h.prepareAt_eq_ok] at hone
  rw [firstPhase, (h.scaled factor).prepareAt_eq_ok, Position.prepare_scaled_of_ne_nil h hlacks]
  simp only [bind, Except.bind, hempty, Bool.false_eq_true, if_false] at hone ⊢
  rw [← Position.firstRun] at hone ⊢
  cases hend : (start.firstRun options barred).ending with
  | stopped =>
    rw [hend] at hone
    obtain rfl := Except.ok.inj hone
    exact ⟨_, rfl, rfl, rfl⟩
  | unbounded column =>
    rw [hend] at hone
    obtain rfl := Except.ok.inj hone
    exact ⟨_, rfl, rfl, rfl⟩
  | noBasicColumn => exact absurd hend ((h.prepare hlacks).ending_run_ne _ _ _)
  | optimal =>
    rw [hend] at hone
    by_cases hsum : start.SumLeft options barred
    · simp only [if_pos (show _ < _ from hsum)] at hone ⊢
      obtain rfl := Except.ok.inj hone
      exact ⟨_, rfl, rfl, rfl⟩
    · obtain ⟨hremove, hframed⟩ := h.firstReduced hlacks barred
      simp only [if_neg (show ¬ _ < _ from hsum), hremove,
        hframed.installAt_eq_ok h.hasWidth.width_eq] at hone
      obtain rfl := Except.ok.inj hone
      refine ⟨?other, ?found, ?_, ?_⟩
      case found =>
        simp only [if_neg (show ¬ _ < _ from hsum), hremove,
          Position.installAt_scaled hframed h hne]
        rfl
      · rfl
      · rfl

/-- The run of the first phase is the same, and what it finds has scaled costs. -/
theorem firstPhase_scaled (hne : factor ≠ 0) :
    ∃ other, firstPhase (start.scaled factor) options barred = .ok other ∧
      other.run = one.run ∧ other.entry = one.entry.scaled factor := by
  by_cases hlacks : start.lackingRows options.tolerance = []
  · exact firstPhase_scaled_of_eq_nil h hone hlacks
  · exact firstPhase_scaled_of_ne_nil h hone hne hlacks

end FirstPhase

section SecondPhase

/-- Two reports that differ at most in the value, which is the rounded form of the given one, if
there is one, and of its multiple. -/
inductive Report.Scales (factor : ℚ) (value : Option ℚ) (report : Report ℚ) : Report ℚ → Prop where
  | same (hnone : report.objectiveValue = none) : Scales factor value report report
  | valued {v : ℚ} (hvalue : value = some v)
      (hreport : report.objectiveValue = some (Scalar.clean v)) :
      Scales factor value report
        { report with objectiveValue := some (Scalar.clean (factor * v)) }

namespace Report.Scales

variable {value : Option ℚ} {one other : Report ℚ} (h : one.Scales factor value other)

include h

theorem eq_with : other = { one with objectiveValue := other.objectiveValue } := by
  cases h <;> rfl

theorem objectiveValue_cases :
    one.objectiveValue = none ∧ other.objectiveValue = none ∨
      ∃ v, value = some v ∧ one.objectiveValue = some (Scalar.clean v) ∧
        other.objectiveValue = some (Scalar.clean (factor * v)) := by
  cases h with
  | same hnone => exact .inl ⟨hnone, hnone⟩
  | valued hvalue hreport => exact .inr ⟨_, hvalue, hreport, rfl⟩

/-- A note is added to both alike. -/
theorem withNote (note : String) :
    (one.withNote note).Scales factor value (other.withNote note) := by
  have hkept := objectiveValue_withNote one note
  cases h with
  | same hnone => exact .same (hkept.trans hnone)
  | @valued v hvalue hreport =>
    have hother : ({ one with objectiveValue := some (Scalar.clean (factor * v)) } :
        Report ℚ).withNote note
        = { one.withNote note with objectiveValue := some (Scalar.clean (factor * v)) } := by
      unfold Report.withNote
      split <;> rfl
    rw [hother]
    exact .valued hvalue (hkept.trans hreport)

end Report.Scales

variable {problem : Problem ℚ} {options : Options ℚ}

theorem secondRun_scaled (htol : options.tolerance = 0) (hfactor : 0 < factor)
    (position : Position ℚ) (earlier : ℕ) :
    secondRun (problem.scaled factor) options (position.scaled factor) earlier
      = (secondRun problem options position earlier).scaled factor := by
  rw [secondRun, Problem.idleColumns_scaled, position.run_scaled htol hfactor, secondRun]

/-- The report on the scaled run. -/
theorem secondReport_scaled (htol : options.tolerance = 0) (hne : factor ≠ 0) {run : Run ℚ}
    {width : ℕ} (hlast : run.last.Framed width) {earlier : ℕ} {report : Report ℚ}
    (hreport : secondReport problem options earlier run = .ok report) :
    ∃ other, secondReport (problem.scaled factor) options earlier (run.scaled factor) = .ok other ∧
      report.Scales factor (some (run.last.objectiveValue problem.objective.sense)) other := by
  unfold secondReport at hreport ⊢
  rw [Run.iterations_scaled, show (run.scaled factor).ending = run.ending from rfl]
  cases hend : run.ending with
  | unbounded column =>
    rw [hend] at hreport
    obtain rfl := Except.ok.inj hreport
    exact ⟨_, rfl, .same rfl⟩
  | stopped =>
    rw [hend] at hreport
    obtain rfl := Except.ok.inj hreport
    exact ⟨_, rfl, .same rfl⟩
  | noBasicColumn =>
    rw [hend] at hreport
    exact absurd hreport nofun
  | optimal =>
    rw [hend] at hreport
    have hone := hlast.reportAt_eq_ok problem.dimension problem.objective.sense
      (earlier + run.iterations : ℤ) problem.idleColumns options.tolerance
    obtain rfl := Except.ok.inj (hreport.symm.trans hone)
    refine ⟨_, (hlast.scaled factor).reportAt_eq_ok _ _ _ _ _, ?_⟩
    rw [Problem.dimension_scaled, Problem.idleColumns_scaled, htol,
      show (problem.scaled factor).objective.sense = problem.objective.sense from rfl,
      Position.report_scaled hlast hne]
    exact .valued rfl rfl

/-- Both second phases are reported. -/
theorem exists_secondReport_scaled (problem : Problem ℚ) (htol : options.tolerance = 0)
    (hfactor : 0 < factor) {position : Position ℚ} {width : ℕ} (h : position.Framed width)
    (earlier : ℕ) :
    ∃ report other,
      secondReport problem options earlier (secondRun problem options position earlier)
        = .ok report ∧
      secondReport (problem.scaled factor) options earlier
          ((secondRun problem options position earlier).scaled factor) = .ok other ∧
      report.Scales factor (some ((secondRun problem options position earlier).last.objectiveValue
        problem.objective.sense)) other := by
  have hlast : (secondRun problem options position earlier).last.Framed width := h.last_run _ _ _
  obtain ⟨report, hreport, -⟩ := exists_concludes h problem options earlier
  obtain ⟨other, hother, hscales⟩ := secondReport_scaled htol hfactor.ne' hlast hreport
  exact ⟨report, other, hreport, hother, hscales⟩

end SecondPhase

namespace Outcome

/-- The value that a report states, before it is rounded: that of the last position. -/
def exactValue? (outcome : Outcome ℚ) (sense : Sense) : Option ℚ :=
  if outcome.report.objectiveValue.isSome then
    outcome.second.map (·.last.objectiveValue sense)
  else
    none

/-- The second outcome makes the same pivots as the first and says the same, but the objective rows
of its second phase are multiplied, and so is the value before it is rounded. -/
structure Scales (factor : ℚ) (sense : Sense) (one other : Outcome ℚ) : Prop where
  status_eq : other.report.status = one.report.status
  iterations_eq : other.report.iterations = one.report.iterations
  message_eq : other.report.message = one.report.message
  solution_eq : other.report.solution = one.report.solution
  alternativeOptima_eq : other.report.alternativeOptima = one.report.alternativeOptima
  history_eq : other.history = one.history.map fun snapshot =>
    if snapshot.phase = 1 then snapshot else snapshot.scaled factor
  exactValue_eq : other.exactValue? sense = (one.exactValue? sense).map (factor * ·)
  rounds : ∀ outcome ∈ [one, other],
    outcome.report.objectiveValue
      = (outcome.exactValue? sense).map fun v => if |v| < 1e-12 then 0 else v

variable {one other : Outcome ℚ} {sense : Sense}

theorem secondSnapshots_scaled (hfirst : other.firstSnapshots = one.firstSnapshots)
    (hsecond : other.second = one.second.map (·.scaled factor)) :
    other.secondSnapshots = one.secondSnapshots.map (·.scaled factor) := by
  have hearlier : other.firstIterations = one.firstIterations := by
    rw [← length_firstSnapshots, hfirst, length_firstSnapshots]
  rw [secondSnapshots, secondSnapshots, hsecond, hearlier]
  cases one.second with
  | none => rfl
  | some run => exact run.snapshots_scaled factor 2 _

theorem history_scaled (hfirst : other.firstSnapshots = one.firstSnapshots)
    (hsecond : other.second = one.second.map (·.scaled factor)) :
    other.history = one.history.map fun snapshot =>
      if snapshot.phase = 1 then snapshot else snapshot.scaled factor := by
  rw [history_eq, history_eq, List.map_append, hfirst, secondSnapshots_scaled hfirst hsecond]
  congr 1
  · refine (List.map_id _).symm.trans (List.map_congr_left fun snapshot hmem => ?_)
    rw [if_pos (phase_of_mem_firstSnapshots hmem), id]
  · refine List.map_congr_left fun snapshot hmem => ?_
    rw [if_neg (by rw [phase_of_mem_secondSnapshots hmem]; decide)]

/-- Both reports state the value of their last position rounded, or neither states one. -/
theorem exists_exactValue_scaled (hsecond : other.second = one.second.map (·.scaled factor))
    (hreport : one.report.Scales factor (one.second.map (·.last.objectiveValue sense))
      other.report) :
    ∃ value, one.exactValue? sense = value ∧ other.exactValue? sense = value.map (factor * ·) ∧
      one.report.objectiveValue = value.map (fun v => if |v| < 1e-12 then 0 else v) ∧
      other.report.objectiveValue
        = (value.map (factor * ·)).map fun v => if |v| < 1e-12 then 0 else v := by
  have hlast : other.second.map (·.last.objectiveValue sense)
      = (one.second.map (·.last.objectiveValue sense)).map (factor * ·) := by
    rw [hsecond, Option.map_map, Option.map_map]
    congr 1
    funext run
    exact run.last.objectiveValue_scaled factor sense
  rcases hreport.objectiveValue_cases with ⟨hone, hother⟩ | ⟨v, hvalue, hone, hother⟩
  · exact ⟨none, by simp [exactValue?, hone], by simp [exactValue?, hother], hone, hother⟩
  · refine ⟨some v, ?_, ?_, hone.trans (congrArg some (Scalar.clean_eq v)),
      hother.trans (congrArg some (Scalar.clean_eq (factor * v)))⟩
    · rw [exactValue?, hone]
      exact hvalue
    · rw [exactValue?, hother, hlast, hvalue]
      rfl

/-- The parts of an outcome decide whether it is scaled. -/
theorem scales_of_parts (hfirst : other.firstSnapshots = one.firstSnapshots)
    (hsecond : other.second = one.second.map (·.scaled factor))
    (hreport : one.report.Scales factor (one.second.map (·.last.objectiveValue sense))
      other.report) : one.Scales factor sense other := by
  obtain ⟨_, rfl, hexact, hone, hother⟩ := exists_exactValue_scaled hsecond hreport
  have heq := hreport.eq_with
  refine ⟨by rw [heq], by rw [heq], by rw [heq], by rw [heq], by rw [heq],
    history_scaled hfirst hsecond, hexact, ?_⟩
  intro outcome hmem
  rcases List.mem_pair.mp hmem with rfl | rfl
  · exact hone
  · rw [hother, hexact]

end Outcome

/-- Both answers are that there is nothing to solve, or the outcome of the second one is the scaled
outcome of the first. -/
inductive Answer.Scales (factor : ℚ) (sense : Sense) : Answer ℚ → Answer ℚ → Prop where
  | nothingToSolve : Scales factor sense .nothingToSolve .nothingToSolve
  | solved {one other : Outcome ℚ} (h : one.Scales factor sense other) :
      Scales factor sense (.solved one) (.solved other)

section Solve

variable {problem : Problem ℚ} {options : Options ℚ} (h : problem.fault? = none)
  (htol : options.tolerance = 0) (hfactor : 0 < factor)

include h htol hfactor

theorem solveSinglePhase_scaled :
    ∃ one other, solveSinglePhase problem options = .ok one ∧
      solveSinglePhase (problem.scaled factor) options = .ok other ∧
      one.Scales factor problem.objective.sense other := by
  obtain ⟨report, other, hreport, hother, hscales⟩ :=
    exists_secondReport_scaled problem htol hfactor (Problem.framed_start h) 0
  rw [solveSinglePhase, hreport, solveSinglePhase, Problem.start_scaled,
    secondRun_scaled htol hfactor, hother]
  exact ⟨_, _, rfl, rfl, Outcome.scales_of_parts rfl rfl hscales⟩

theorem solveTwoPhase_scaled :
    ∃ one other, solveTwoPhase problem options = .ok one ∧
      solveTwoPhase (problem.scaled factor) options = .ok other ∧
      one.Scales factor problem.objective.sense other := by
  have hframed := Problem.framed_start h
  obtain ⟨first, hfirst, hsearch⟩ := hframed.exists_search options problem.idleColumns
  obtain ⟨first', hfirst', hrun, hentry'⟩ := firstPhase_scaled hframed hfirst hfactor.ne'
  have hiterations : first'.iterations = first.iterations := by
    rw [FirstPhase.iterations, hrun, FirstPhase.iterations]
  have hsnapshots : first'.snapshots = first.snapshots := by
    rw [FirstPhase.snapshots, hrun, FirstPhase.snapshots]
  have hscales : ∀ report : Report ℚ, report.objectiveValue = none →
      Outcome.Scales factor problem.objective.sense ⟨some first, none, report⟩
        ⟨some first', none, report⟩ :=
    fun _ hnone => Outcome.scales_of_parts hsnapshots rfl (.same hnone)
  simp only [solveTwoPhase, Problem.start_scaled, Problem.idleColumns_scaled, hfirst, hfirst',
    bind, Except.bind, hentry', hiterations]
  cases hentry : first.entry with
  | stopped => exact ⟨_, _, rfl, rfl, hscales _ rfl⟩
  | infeasible sum => exact ⟨_, _, rfl, rfl, hscales _ rfl⟩
  | unbounded => exact ⟨_, _, rfl, rfl, hscales _ rfl⟩
  | feasible reduced =>
    obtain ⟨report, other, hreport, hother, hscales⟩ := exists_secondReport_scaled problem htol
      hfactor (hsearch.framed hframed hentry) first.iterations
    simp only [Entry.scaled, secondRun_scaled htol hfactor, hreport, hother]
    refine ⟨_, _, rfl, rfl, ?_⟩
    exact Outcome.scales_of_parts hsnapshots rfl (hscales.withNote _)

end Solve

/-- Without a tolerance, multiplying the objective by a positive number changes neither the pivots
nor the verdict, whether in one phase or in two: it multiplies the objective rows of the second
phase and the value before it is rounded, and leaves everything else as it is. -/
theorem solve_scaled {problem : Problem ℚ} {options : Options ℚ} (h : problem.fault? = none)
    (htol : options.tolerance = 0) {factor : ℚ} (hfactor : 0 < factor) :
    ∃ one other, solve problem options = .ok one ∧
      solve (problem.scaled factor) options = .ok other ∧
      one.Scales factor problem.objective.sense other := by
  have h' := Problem.fault?_scaled factor h
  by_cases hrows : problem.constraints = []
  · exact ⟨_, _, solve_eq_of_nil hrows, solve_eq_of_nil hrows, .nothingToSolve⟩
  · cases hmode : options.twoPhase with
    | true =>
      obtain ⟨one, other, hone, hother, hscales⟩ := solveTwoPhase_scaled h htol hfactor
      exact ⟨_, _, solve_eq_of_twoPhase h hrows hmode hone,
        solve_eq_of_twoPhase h' hrows hmode hother, .solved hscales⟩
    | false =>
      obtain ⟨one, other, hone, hother, hscales⟩ := solveSinglePhase_scaled h htol hfactor
      exact ⟨_, _, solve_eq_of_singlePhase h hrows hmode hone,
        solve_eq_of_singlePhase h' hrows hmode hother, .solved hscales⟩

theorem solve_scaled_retold :
    ∃ one other, solve .retold { tolerance := 0 } = .ok (.solved one) ∧
      solve (Problem.retold.scaled 3) { tolerance := 0 } = .ok (.solved other) ∧
      one.history.map (·.phase) = [1, 1, 2] ∧ one.exactValue? .maximise = some 4 ∧
      one.Scales 3 .maximise other := by
  obtain ⟨_, _, hone, hother, hscales⟩ :=
    @solve_scaled .retold { tolerance := 0 } (by decide +kernel) rfl 3 (by norm_num)
  obtain ⟨outcome, hsolve, -⟩ := @exists_solve_route ℚ _ .retold (by decide +kernel)
    (by simp [Problem.retold]) { tolerance := 0 }
  obtain rfl := Except.ok.inj (hone.symm.trans hsolve)
  cases hscales with
  | @solved _ other hscales =>
    exact ⟨outcome, other, hone, hother,
      eq_of_solve hone (fun o => o.history.map (·.phase)) (by decide +kernel),
      eq_of_solve hone (fun o => o.exactValue? .maximise) (by decide +kernel), hscales⟩

end SimplexMethod
