import SimplexMethod.Proofs.Phases.Freeing
import SimplexMethod.Proofs.Phases.Start
import SimplexMethod.Solve

/-!
# The course of a solve

A solve in two phases of an accepted problem always gives an outcome: all its positions are framed,
so no checked step is refused. `Position.Search` lists the ways in which the first phase may end
and `Course` those of the whole solve. Nothing here depends on the arithmetic.
-/

namespace SimplexMethod

namespace Report

variable {α : Type} (report : Report α) (note : String)

@[simp] theorem status_withNote : (report.withNote note).status = report.status := by
  unfold withNote
  split <;> rfl

@[simp] theorem solution_withNote : (report.withNote note).solution = report.solution := by
  unfold withNote
  split <;> rfl

@[simp] theorem objectiveValue_withNote :
    (report.withNote note).objectiveValue = report.objectiveValue := by
  unfold withNote
  split <;> rfl

@[simp] theorem iterations_withNote : (report.withNote note).iterations = report.iterations := by
  unfold withNote
  split <;> rfl

end Report

variable {α : Type} [Scalar α]

theorem Problem.framed_start {problem : Problem α} (h : problem.fault? = none) :
    problem.start.Framed (problem.dimension + problem.constraints.length) where
  hasWidth := hasWidth_start h
  length_basis := by simp
  lt_width := fun _ hc => (List.mem_range'_1.mp hc).2

namespace Position

/-- The run of the first phase. -/
def firstRun (start : Position α) (options : Options α) (barred : List Nat) : Run α :=
  (start.prepare options.tolerance).position.run options barred options.maxIterations

/-- The last position of the first phase without its artificial columns. -/
def firstReduced (start : Position α) (options : Options α) (barred : List Nat) (width : Nat) :
    Reduced α :=
  (start.firstRun options barred).last.removeArtificial
    (start.prepare options.tolerance).artificial width options.tolerance

/-- The sum of the artificial columns at the end of the first phase exceeds what is tolerated. -/
def SumLeft (start : Position α) (options : Options α) (barred : List Nat) : Prop :=
  options.tolerance * (start.prepare options.tolerance).scale
    < -rhs (start.firstRun options barred).last.tableau.objective

/-- How the first phase may end, from a start with the given number of columns besides the
right-hand side. -/
inductive Search (start : Position α) (options : Options α) (barred : List Nat) (width : Nat) :
    FirstPhase α → Prop where
  | immediate (hready : start.lackingRows options.tolerance = []) :
      Search start options barred width
        ⟨start.prepare options.tolerance, none,
          .feasible ⟨(start.prepare options.tolerance).position, []⟩⟩
  | stopped (hlacks : start.lackingRows options.tolerance ≠ [])
      (hend : (start.firstRun options barred).ending = .stopped) :
      Search start options barred width
        ⟨start.prepare options.tolerance, some (start.firstRun options barred), .stopped⟩
  | unbounded {column : Nat} (hlacks : start.lackingRows options.tolerance ≠ [])
      (hend : (start.firstRun options barred).ending = .unbounded column) :
      Search start options barred width
        ⟨start.prepare options.tolerance, some (start.firstRun options barred), .unbounded⟩
  | infeasible (hlacks : start.lackingRows options.tolerance ≠ [])
      (hend : (start.firstRun options barred).ending = .optimal)
      (hsum : start.SumLeft options barred) :
      Search start options barred width
        ⟨start.prepare options.tolerance, some (start.firstRun options barred),
          .infeasible (-rhs (start.firstRun options barred).last.tableau.objective)⟩
  | feasible (hlacks : start.lackingRows options.tolerance ≠ [])
      (hend : (start.firstRun options barred).ending = .optimal)
      (hsum : ¬ start.SumLeft options barred) :
      Search start options barred width
        ⟨start.prepare options.tolerance, some (start.firstRun options barred),
          .feasible
            ⟨⟨(start.firstReduced options barred width).position.install start.tableau.objective,
                (start.firstReduced options barred width).position.basis⟩,
              (start.firstReduced options barred width).dropped⟩⟩

variable {start : Position α} {options : Options α} {barred : List Nat} {width : Nat}

theorem lt_of_mem_lackingRows (h : start.Framed width) {tolerance : α} :
    ∀ row ∈ start.lackingRows tolerance, row < start.tableau.rows.length :=
  fun _ hr => h.length_basis ▸ (mem_lackingRows.mp hr).1

/-- The prepared position is framed by the columns of the start and the artificial ones. -/
theorem Framed.prepare (h : start.Framed width)
    (hlacks : start.lackingRows options.tolerance ≠ []) :
    (start.prepare options.tolerance).position.Framed
      (width + (start.lackingRows options.tolerance).length) := by
  rw [prepare_of_ne_nil h.hasWidth hlacks]
  exact h.artificial (lt_of_mem_lackingRows h) _

theorem Framed.firstReduced (h : start.Framed width)
    (hlacks : start.lackingRows options.tolerance ≠ []) (barred : List Nat) :
    (start.firstRun options barred).last.removeArtificialAt
        (start.prepare options.tolerance).artificial options.tolerance
      = .ok (start.firstReduced options barred width) ∧
      (start.firstReduced options barred width).position.Framed width := by
  have hlast : (start.firstRun options barred).last.Framed
      (width + (start.lackingRows options.tolerance).length) :=
    (h.prepare hlacks).last_run _ _ _
  have hartificial : (start.prepare options.tolerance).artificial
      = List.range' width (start.lackingRows options.tolerance).length := by
    rw [prepare_of_ne_nil h.hasWidth hlacks]
  rw [Position.firstReduced, hartificial]
  refine ⟨hlast.removeArtificialAt_eq_ok (List.length_pos_iff.mpr hlacks) _, ?_⟩
  rw [removeArtificial_eq]
  exact (Freed.all hlast).framed_left

/-- Without lacking rows the first phase makes no run. -/
theorem Framed.firstPhase_eq_of_nil (h : start.Framed width) (options : Options α)
    (hready : start.lackingRows options.tolerance = []) (barred : List Nat) :
    firstPhase start options barred
      = .ok ⟨start.prepare options.tolerance, none,
          .feasible ⟨(start.prepare options.tolerance).position, []⟩⟩ := by
  have hempty : (start.prepare options.tolerance).artificial.isEmpty = true := by
    rw [prepare_of_eq_nil hready]
    rfl
  rw [firstPhase, h.prepareAt_eq_ok]
  simp only [bind, Except.bind, hempty, if_true]
  rfl

/-- The first phase ends in one of the ways listed. -/
theorem Framed.exists_search (h : start.Framed width) (options : Options α)
    (barred : List Nat) :
    ∃ phase, firstPhase start options barred = .ok phase ∧
      start.Search options barred width phase := by
  by_cases hlacks : start.lackingRows options.tolerance = []
  · exact ⟨_, h.firstPhase_eq_of_nil options hlacks barred, .immediate hlacks⟩
  · rw [firstPhase, h.prepareAt_eq_ok]
    have hempty : (start.prepare options.tolerance).artificial.isEmpty = false := by
      rw [prepare_of_ne_nil h.hasWidth hlacks]
      simpa using hlacks
    simp only [bind, Except.bind, hempty, Bool.false_eq_true, if_false]
    rw [← firstRun]
    cases hend : (start.firstRun options barred).ending with
    | stopped => exact ⟨_, rfl, .stopped hlacks hend⟩
    | unbounded column => exact ⟨_, rfl, .unbounded hlacks hend⟩
    | noBasicColumn => exact absurd hend ((h.prepare hlacks).ending_run_ne _ _ _)
    | optimal =>
      by_cases hsum : start.SumLeft options barred
      · refine ⟨_, ?_, .infeasible hlacks hend hsum⟩
        simp only [if_pos (show _ < _ from hsum)]
        rfl
      · refine ⟨_, ?_, .feasible hlacks hend hsum⟩
        obtain ⟨hremove, hframed⟩ := h.firstReduced hlacks barred
        simp only [if_neg (show ¬ _ < _ from hsum), hremove,
          hframed.installAt_eq_ok h.hasWidth.width_eq]
        rfl

namespace Search

variable {phase : FirstPhase α} (hs : start.Search options barred width phase)

include hs

/-- However the first phase ends, it prepares the start. -/
theorem prepared_eq : phase.prepared = start.prepare options.tolerance := by
  cases hs <;> rfl

/-- A first phase makes a run if rows lack a start. -/
theorem of_run {run : Run α} (hrun : phase.run = some run) :
    start.lackingRows options.tolerance ≠ [] ∧ run = start.firstRun options barred := by
  cases hs with
  | immediate => exact absurd hrun nofun
  | stopped hlacks => exact ⟨hlacks, (Option.some.inj hrun).symm⟩
  | unbounded hlacks => exact ⟨hlacks, (Option.some.inj hrun).symm⟩
  | infeasible hlacks => exact ⟨hlacks, (Option.some.inj hrun).symm⟩
  | feasible hlacks => exact ⟨hlacks, (Option.some.inj hrun).symm⟩

/-- If rows lack a start the first phase makes its run. -/
theorem run_eq (hlacks : start.lackingRows options.tolerance ≠ []) :
    phase.run = some (start.firstRun options barred) := by
  cases hs with
  | immediate hready => exact absurd hready hlacks
  | stopped => rfl
  | unbounded => rfl
  | infeasible => rfl
  | feasible => rfl

theorem of_stopped (hentry : phase.entry = .stopped) :
    start.lackingRows options.tolerance ≠ [] ∧
      (start.firstRun options barred).ending = .stopped := by
  cases hs with
  | immediate => exact absurd hentry nofun
  | stopped hlacks hend => exact ⟨hlacks, hend⟩
  | unbounded => exact absurd hentry nofun
  | infeasible => exact absurd hentry nofun
  | feasible => exact absurd hentry nofun

theorem of_unbounded (hentry : phase.entry = .unbounded) :
    start.lackingRows options.tolerance ≠ [] ∧ phase.run = some (start.firstRun options barred) ∧
      ∃ column, (start.firstRun options barred).ending = .unbounded column := by
  cases hs with
  | immediate => exact absurd hentry nofun
  | stopped => exact absurd hentry nofun
  | unbounded hlacks hend => exact ⟨hlacks, rfl, _, hend⟩
  | infeasible => exact absurd hentry nofun
  | feasible => exact absurd hentry nofun

theorem of_infeasible {sum : α} (hentry : phase.entry = .infeasible sum) :
    start.lackingRows options.tolerance ≠ [] ∧
      (start.firstRun options barred).ending = .optimal ∧ start.SumLeft options barred := by
  cases hs with
  | immediate => exact absurd hentry nofun
  | stopped => exact absurd hentry nofun
  | unbounded => exact absurd hentry nofun
  | infeasible hlacks hend hsum => exact ⟨hlacks, hend, hsum⟩
  | feasible => exact absurd hentry nofun

/-- The run of the first phase spends its budget if and only if the phase is stopped. -/
theorem run_stopped_iff :
    (∃ run, phase.run = some run ∧ run.ending = .stopped) ↔ phase.entry = .stopped := by
  cases hs with
  | immediate => simp
  | stopped _ hend => simp [hend]
  | unbounded _ hend => simp [hend]
  | infeasible _ hend => simp [hend]
  | feasible _ hend => simp [hend]

/-- A position for the second phase comes without a run, or from a run that leaves no sum. -/
theorem of_feasible {reduced : Reduced α} (hentry : phase.entry = .feasible reduced) :
    start.lackingRows options.tolerance = [] ∧
        reduced = ⟨(start.prepare options.tolerance).position, []⟩ ∨
      start.lackingRows options.tolerance ≠ [] ∧
        (start.firstRun options barred).ending = .optimal ∧ ¬ start.SumLeft options barred ∧
        reduced
          = ⟨⟨(start.firstReduced options barred width).position.install start.tableau.objective,
              (start.firstReduced options barred width).position.basis⟩,
            (start.firstReduced options barred width).dropped⟩ := by
  cases hs with
  | immediate hready => exact .inl ⟨hready, (Entry.feasible.inj hentry).symm⟩
  | stopped => exact absurd hentry nofun
  | unbounded => exact absurd hentry nofun
  | infeasible => exact absurd hentry nofun
  | feasible hlacks hend hsum =>
    exact .inr ⟨hlacks, hend, hsum, (Entry.feasible.inj hentry).symm⟩

/-- The second phase starts from a framed position. -/
theorem framed {reduced : Reduced α} (h : start.Framed width)
    (hentry : phase.entry = .feasible reduced) : reduced.position.Framed width := by
  rcases hs.of_feasible hentry with ⟨hready, rfl⟩ | ⟨hlacks, -, -, rfl⟩
  · rw [prepare_of_eq_nil hready]
    exact h.signed _
  · exact (h.firstReduced hlacks _).2.install h.hasWidth.width_eq

end Search

end Position

/-- The verdict on a terminal position. -/
theorem Position.status_report (p : Position α) (n : Nat) (sense : Sense) (iterations : Int)
    (barred : List Nat) (tolerance : α) :
    (p.report n sense iterations barred tolerance).status = .optimal ∨
      (p.report n sense iterations barred tolerance).status = .optimalWithAlternatives := by
  unfold report
  dsimp only
  split
  · exact .inr rfl
  · exact .inl rfl

/-- What is reported of a run of the second phase. -/
inductive Concludes (problem : Problem α) (options : Options α) (run : Run α) :
    Report α → Prop where
  | optimal {report : Report α} (hend : run.ending = .optimal)
      (hreport : ∃ iterations note, report
        = (run.last.report problem.dimension problem.objective.sense iterations
          problem.idleColumns options.tolerance).withNote note)
      (hstatus : report.status = .optimal ∨ report.status = .optimalWithAlternatives) :
      Concludes problem options run report
  | unbounded {column : Nat} {report : Report α} (hend : run.ending = .unbounded column)
      (hstatus : report.status = .unbounded) : Concludes problem options run report
  | stopped {report : Report α} (hend : run.ending = .stopped)
      (hstatus : report.status = .iterationLimit) : Concludes problem options run report

/-- An optimal verdict is read off the last position of a run that ended optimal. -/
theorem Concludes.of_optimal {problem : Problem α} {options : Options α} {run : Run α}
    {report : Report α} (h : Concludes problem options run report)
    (hstatus : report.status = .optimal ∨ report.status = .optimalWithAlternatives) :
    run.ending = .optimal ∧ ∃ iterations note, report
      = (run.last.report problem.dimension problem.objective.sense iterations
        problem.idleColumns options.tolerance).withNote note := by
  cases h with
  | unbounded _ hreport => simp [hreport] at hstatus
  | stopped _ hreport => simp [hreport] at hstatus
  | optimal hend hreport => exact ⟨hend, hreport⟩

/-- What is reported of a run is a verdict on an accepted problem. -/
theorem Concludes.status_ne_invalid {problem : Problem α} {options : Options α} {run : Run α}
    {report : Report α} (h : Concludes problem options run report) : report.status ≠ .invalid := by
  cases h with
  | optimal _ _ hstatus => rcases hstatus with hstatus | hstatus <;> simp [hstatus]
  | unbounded _ hstatus => simp [hstatus]
  | stopped _ hstatus => simp [hstatus]

theorem exists_concludes {position : Position α} {width : Nat} (h : position.Framed width)
    (problem : Problem α) (options : Options α) (earlier : Nat) :
    ∃ report,
      secondReport problem options earlier (secondRun problem options position earlier)
        = .ok report ∧
      ∀ note, Concludes problem options (secondRun problem options position earlier)
        (report.withNote note) := by
  have hlast : (secondRun problem options position earlier).last.Framed width :=
    h.last_run _ _ _
  unfold secondReport
  cases hend : (secondRun problem options position earlier).ending with
  | optimal =>
    refine ⟨_, hlast.reportAt_eq_ok _ _ _ _ _, fun note => .optimal hend ⟨_, note, rfl⟩ ?_⟩
    rw [Report.status_withNote]
    exact Position.status_report _ _ _ _ _ _
  | unbounded column =>
    exact ⟨_, rfl, fun note => .unbounded hend (Report.status_withNote _ note)⟩
  | stopped => exact ⟨_, rfl, fun note => .stopped hend (Report.status_withNote _ note)⟩
  | noBasicColumn => exact absurd hend (h.ending_run_ne _ _ _)

/-- How a solve in two phases may go. -/
inductive Course (problem : Problem α) (options : Options α) : Outcome α → Prop where
  | stopped {first : FirstPhase α} {report : Report α}
      (hfirst : problem.start.Search options problem.idleColumns
        (problem.dimension + problem.constraints.length) first)
      (hentry : first.entry = .stopped) (hstatus : report.status = .iterationLimit) :
      Course problem options ⟨some first, none, report⟩
  | infeasible {first : FirstPhase α} {report : Report α} {sum : α}
      (hfirst : problem.start.Search options problem.idleColumns
        (problem.dimension + problem.constraints.length) first)
      (hentry : first.entry = .infeasible sum) (hstatus : report.status = .infeasible) :
      Course problem options ⟨some first, none, report⟩
  | unbounded {first : FirstPhase α} {report : Report α}
      (hfirst : problem.start.Search options problem.idleColumns
        (problem.dimension + problem.constraints.length) first)
      (hentry : first.entry = .unbounded) (hstatus : report.status = .unbounded) :
      Course problem options ⟨some first, none, report⟩
  | second {first : FirstPhase α} {report : Report α} {reduced : Reduced α}
      (hfirst : problem.start.Search options problem.idleColumns
        (problem.dimension + problem.constraints.length) first)
      (hentry : first.entry = .feasible reduced)
      (hreport : Concludes problem options
        (secondRun problem options reduced.position first.iterations) report) :
      Course problem options
        ⟨some first, some (secondRun problem options reduced.position first.iterations), report⟩

namespace Course

variable {problem : Problem α} {options : Options α} {outcome : Outcome α}
  (h : Course problem options outcome)

include h

/-- There always is a first phase. -/
theorem exists_first :
    ∃ first, outcome.first = some first ∧ problem.start.Search options problem.idleColumns
      (problem.dimension + problem.constraints.length) first := by
  cases h with
  | stopped hfirst => exact ⟨_, rfl, hfirst⟩
  | infeasible hfirst => exact ⟨_, rfl, hfirst⟩
  | unbounded hfirst => exact ⟨_, rfl, hfirst⟩
  | second hfirst => exact ⟨_, rfl, hfirst⟩

/-- An optimal verdict comes after both phases and is read off the last position. -/
theorem phases_of_optimal
    (hstatus : outcome.report.status = .optimal ∨
      outcome.report.status = .optimalWithAlternatives) :
    ∃ first reduced run, outcome.first = some first ∧
      problem.start.Search options problem.idleColumns
        (problem.dimension + problem.constraints.length) first ∧
      first.entry = .feasible reduced ∧
      run = secondRun problem options reduced.position first.iterations ∧
      outcome.second = some run ∧ run.ending = .optimal ∧
      ∃ iterations note, outcome.report
        = (run.last.report problem.dimension problem.objective.sense iterations
          problem.idleColumns options.tolerance).withNote note := by
  cases h with
  | stopped _ _ hreport => simp [hreport] at hstatus
  | infeasible _ _ hreport => simp [hreport] at hstatus
  | unbounded _ _ hreport => simp [hreport] at hstatus
  | second hfirst hentry hreport =>
    obtain ⟨hend, hreport⟩ := hreport.of_optimal hstatus
    exact ⟨_, _, _, rfl, hfirst, hentry, rfl, rfl, hend, hreport⟩

/-- An optimal verdict is read off the last position of the second phase. -/
theorem of_optimal
    (hstatus : outcome.report.status = .optimal ∨
      outcome.report.status = .optimalWithAlternatives) :
    ∃ first reduced run, problem.start.Search options problem.idleColumns
        (problem.dimension + problem.constraints.length) first ∧
      first.entry = .feasible reduced ∧
      run = secondRun problem options reduced.position first.iterations ∧
      outcome.second = some run ∧ run.ending = .optimal ∧
      ∃ iterations note, outcome.report
        = (run.last.report problem.dimension problem.objective.sense iterations
          problem.idleColumns options.tolerance).withNote note := by
  obtain ⟨first, reduced, run, -, hphases⟩ := h.phases_of_optimal hstatus
  exact ⟨first, reduced, run, hphases⟩

/-- A problem is reported infeasible by the first phase only. -/
theorem of_infeasible (hstatus : outcome.report.status = .infeasible) :
    ∃ first sum, problem.start.Search options problem.idleColumns
        (problem.dimension + problem.constraints.length) first ∧
      first.entry = .infeasible sum := by
  cases h with
  | stopped _ _ hreport => simp [hreport] at hstatus
  | infeasible hfirst hentry _ => exact ⟨_, _, hfirst, hentry⟩
  | unbounded _ _ hreport => simp [hreport] at hstatus
  | second _ _ hreport =>
    cases hreport with
    | unbounded _ hreport => simp [hreport] at hstatus
    | stopped _ hreport => simp [hreport] at hstatus
    | optimal _ _ hreport => rcases hreport with hreport | hreport <;> simp [hreport] at hstatus

/-- A problem is reported unbounded by either phase. -/
theorem of_unbounded (hstatus : outcome.report.status = .unbounded) :
    ∃ first, problem.start.Search options problem.idleColumns
        (problem.dimension + problem.constraints.length) first ∧
      (first.entry = .unbounded ∨ ∃ reduced column, first.entry = .feasible reduced ∧
        (secondRun problem options reduced.position first.iterations).ending
          = .unbounded column) := by
  cases h with
  | stopped _ _ hreport => simp [hreport] at hstatus
  | infeasible _ _ hreport => simp [hreport] at hstatus
  | unbounded hfirst hentry _ => exact ⟨_, hfirst, .inl hentry⟩
  | second hfirst hentry hreport =>
    cases hreport with
    | unbounded hend _ => exact ⟨_, hfirst, .inr ⟨_, _, hentry, hend⟩⟩
    | stopped _ hreport => simp [hreport] at hstatus
    | optimal _ _ hreport => rcases hreport with hreport | hreport <;> simp [hreport] at hstatus

/-- The iteration limit is reported by either phase. -/
theorem of_iterationLimit (hstatus : outcome.report.status = .iterationLimit) :
    ∃ first, problem.start.Search options problem.idleColumns
        (problem.dimension + problem.constraints.length) first ∧
      (first.entry = .stopped ∨ ∃ reduced, first.entry = .feasible reduced ∧
        (secondRun problem options reduced.position first.iterations).ending = .stopped) := by
  cases h with
  | stopped hfirst hentry _ => exact ⟨_, hfirst, .inl hentry⟩
  | infeasible _ _ hreport => simp [hreport] at hstatus
  | unbounded _ _ hreport => simp [hreport] at hstatus
  | second hfirst hentry hreport =>
    cases hreport with
    | unbounded _ hreport => simp [hreport] at hstatus
    | stopped hend _ => exact ⟨_, hfirst, .inr ⟨_, hentry, hend⟩⟩
    | optimal _ _ hreport => rcases hreport with hreport | hreport <;> simp [hreport] at hstatus

end Course

theorem exists_solveTwoPhase {problem : Problem α} (h : problem.fault? = none)
    (options : Options α) :
    ∃ outcome, solveTwoPhase problem options = .ok outcome ∧ Course problem options outcome := by
  obtain ⟨first, hfirst, hsearch⟩ :=
    (Problem.framed_start h).exists_search options problem.idleColumns
  simp only [solveTwoPhase, hfirst, bind, Except.bind]
  cases hentry : first.entry with
  | stopped => exact ⟨_, rfl, .stopped hsearch hentry rfl⟩
  | infeasible sum => exact ⟨_, rfl, .infeasible hsearch hentry rfl⟩
  | unbounded => exact ⟨_, rfl, .unbounded hsearch hentry rfl⟩
  | feasible reduced =>
    obtain ⟨report, hreport, hconcludes⟩ :=
      exists_concludes (hsearch.framed (Problem.framed_start h) hentry) problem options
        first.iterations
    simp only [hreport]
    exact ⟨_, rfl, .second hsearch hentry (hconcludes _)⟩

section Modes

variable {problem : Problem α} {options : Options α} {outcome : Outcome α}

theorem solve_eq_of_nil (hnone : problem.constraints = []) :
    solve problem options = .ok .nothingToSolve := by
  simp only [solve, hnone]
  rfl

theorem solve_eq_of_fault {fault : ProblemFault} (hfault : problem.fault? = some fault)
    (hrows : problem.constraints ≠ []) : solve problem options = .ok (.rejected fault) := by
  have hempty : problem.constraints.isEmpty = false := by simpa using hrows
  simp only [solve, hempty, hfault]
  rfl

variable (h : problem.fault? = none) (hrows : problem.constraints ≠ [])

include h hrows

theorem solve_eq_of_twoPhase (htwo : options.twoPhase = true)
    (houtcome : solveTwoPhase problem options = .ok outcome) :
    solve problem options = .ok (.solved outcome) := by
  have hempty : problem.constraints.isEmpty = false := by simpa using hrows
  simp only [solve, hempty, h, htwo, houtcome]
  rfl

theorem solve_eq_of_singlePhase (hone : options.twoPhase = false)
    (houtcome : solveSinglePhase problem options = .ok outcome) :
    solve problem options = .ok (.solved outcome) := by
  have hempty : problem.constraints.isEmpty = false := by simpa using hrows
  simp only [solve, hempty, h, hone, houtcome]
  rfl

end Modes

/-- A solve in two phases of an accepted problem with rows gives an outcome. -/
theorem exists_solve {problem : Problem α} {options : Options α} (h : problem.fault? = none)
    (hrows : problem.constraints ≠ []) (htwo : options.twoPhase = true) :
    ∃ outcome, solve problem options = .ok (.solved outcome) ∧
      Course problem options outcome := by
  obtain ⟨outcome, houtcome, hcourse⟩ := exists_solveTwoPhase h options
  exact ⟨outcome, solve_eq_of_twoPhase h hrows htwo houtcome, hcourse⟩

end SimplexMethod
