import SimplexMethod.Proofs.Pivoting.Budget
import SimplexMethod.Proofs.Solve.History

/-!
# The routes of a solve

A solve takes one of two routes: from the slack basis in one phase, or in two phases. On both the
costs are minimised by the run of the second phase, which starts in the slack basis or in the
position that the first phase leaves. On both the report counts the snapshots of the history.
Nothing here depends on the arithmetic.
-/

namespace SimplexMethod

variable {α : Type}

/-- A computation in two steps succeeds if both steps do. -/
theorem exists_of_bind_eq_ok {ε β γ : Type} {first : Except ε β} {second : β → Except ε γ} {c : γ}
    (h : first.bind second = .ok c) : ∃ b, first = .ok b ∧ second b = .ok c := by
  cases first with
  | error fault => exact absurd h nofun
  | ok b => exact ⟨b, rfl, h⟩

namespace FirstPhase

variable (first : FirstPhase α)

/-- The first phase has as many snapshots as its run made pivots. -/
@[simp] theorem length_snapshots : first.snapshots.length = first.iterations := by
  rw [snapshots, iterations]
  cases first.run with
  | none => rfl
  | some run => exact run.length_snapshots 1 0

theorem phase_of_mem_snapshots {snapshot : Snapshot α} (hmem : snapshot ∈ first.snapshots) :
    snapshot.phase = 1 := by
  rw [snapshots] at hmem
  cases hrun : first.run with
  | none => simp [hrun] at hmem
  | some run =>
    rw [hrun] at hmem
    exact Run.phase_of_mem_snapshots hmem

end FirstPhase

namespace Outcome

/-- What a caller is given of a finished solve. -/
def result (outcome : Outcome α) : Result α :=
  ⟨outcome.history, outcome.report⟩

/-- The recorded pivots of the first phase. -/
def firstSnapshots (outcome : Outcome α) : List (Snapshot α) :=
  outcome.first.elim [] FirstPhase.snapshots

/-- The run of the first phase, if there was one. -/
def firstRun? (outcome : Outcome α) : Option (Run α) :=
  outcome.first.bind FirstPhase.run

/-- The recorded pivots of the second phase. -/
def secondSnapshots (outcome : Outcome α) : List (Snapshot α) :=
  outcome.second.elim [] (·.snapshots 2 outcome.firstIterations)

variable (outcome : Outcome α)

theorem history_eq : outcome.history = outcome.firstSnapshots ++ outcome.secondSnapshots := rfl

@[simp] theorem length_firstSnapshots :
    outcome.firstSnapshots.length = outcome.firstIterations := by
  rw [firstSnapshots, firstIterations]
  cases outcome.first with
  | none => rfl
  | some first => exact first.length_snapshots

@[simp] theorem length_secondSnapshots :
    outcome.secondSnapshots.length = outcome.second.elim 0 Run.iterations := by
  rw [secondSnapshots]
  cases outcome.second with
  | none => rfl
  | some run => exact run.length_snapshots 2 _

/-- A history is as long as the runs it is made of. -/
theorem length_history :
    outcome.history.length = outcome.firstIterations + outcome.second.elim 0 Run.iterations := by
  rw [history_eq, List.length_append, length_firstSnapshots, length_secondSnapshots]

variable {outcome} {snapshot : Snapshot α}

theorem firstSnapshots_eq_elim (outcome : Outcome α) :
    outcome.firstSnapshots = outcome.firstRun?.elim [] (·.snapshots 1 0) := by
  rw [firstSnapshots, firstRun?]
  cases outcome.first <;> rfl

/-- The snapshots of the first phase are those of its run. -/
theorem firstSnapshots_eq {first : FirstPhase α} {run : Run α}
    (hfirst : outcome.first = some first) (hrun : first.run = some run) :
    outcome.firstSnapshots = run.snapshots 1 0 := by
  rw [firstSnapshots, hfirst, Option.elim_some, FirstPhase.snapshots, hrun, Option.elim_some]

theorem phase_of_mem_firstSnapshots (hmem : snapshot ∈ outcome.firstSnapshots) :
    snapshot.phase = 1 := by
  rw [firstSnapshots] at hmem
  cases hfirst : outcome.first with
  | none => simp [hfirst] at hmem
  | some first =>
    rw [hfirst] at hmem
    exact first.phase_of_mem_snapshots hmem

theorem exists_second_of_mem_secondSnapshots (hmem : snapshot ∈ outcome.secondSnapshots) :
    ∃ run, outcome.second = some run ∧ snapshot ∈ run.snapshots 2 outcome.firstIterations := by
  rw [secondSnapshots] at hmem
  cases hrun : outcome.second with
  | none => simp [hrun] at hmem
  | some run =>
    rw [hrun] at hmem
    exact ⟨run, rfl, hmem⟩

theorem phase_of_mem_secondSnapshots (hmem : snapshot ∈ outcome.secondSnapshots) :
    snapshot.phase = 2 := by
  obtain ⟨run, -, hmem⟩ := exists_second_of_mem_secondSnapshots hmem
  exact Run.phase_of_mem_snapshots hmem

/-- The snapshots of the second phase are those of its run. -/
theorem exists_second_of_mem_history (hmem : snapshot ∈ outcome.history)
    (hphase : snapshot.phase = 2) :
    ∃ run, outcome.second = some run ∧ snapshot ∈ run.snapshots 2 outcome.firstIterations := by
  rcases List.mem_append.mp hmem with hfirst | hsecond
  · exact absurd (hphase.symm.trans (phase_of_mem_firstSnapshots hfirst)) (by decide)
  · exact exists_second_of_mem_secondSnapshots hsecond

/-- The positions of the second phase that are recorded or that its run ends in. -/
inductive Shows (outcome : Outcome α) : Position α → Prop where
  | snapshot {snapshot : Snapshot α} (hmem : snapshot ∈ outcome.history)
      (hphase : snapshot.phase = 2) : Shows outcome snapshot.position
  | last {run : Run α} (hsecond : outcome.second = some run) : Shows outcome run.last

end Outcome

variable [Scalar α]

section Counts

variable {problem : Problem α} {options : Options α}

/-- The report of the second phase counts its pivots and the earlier ones. -/
theorem iterations_secondReport {earlier : Nat} {run : Run α} {report : Report α}
    (h : secondReport problem options earlier run = .ok report) :
    report.iterations = earlier + run.iterations := by
  unfold secondReport at h
  cases hend : run.ending with
  | unbounded column =>
    rw [hend] at h
    rw [← Except.ok.inj h]
  | stopped =>
    rw [hend] at h
    rw [← Except.ok.inj h]
  | noBasicColumn =>
    rw [hend] at h
    exact absurd h nofun
  | optimal =>
    rw [hend] at h
    obtain ⟨-, -, hreport⟩ := exists_of_bind_eq_ok h
    rw [← Except.ok.inj hreport]
    rfl

theorem iterations_solveTwoPhase {outcome : Outcome α}
    (h : solveTwoPhase problem options = .ok outcome) :
    outcome.report.iterations = outcome.history.length := by
  obtain ⟨first, -, h⟩ := exists_of_bind_eq_ok h
  cases hentry : first.entry with
  | stopped =>
    rw [hentry] at h
    rw [Outcome.length_history, ← Except.ok.inj h]
    rfl
  | infeasible sum =>
    rw [hentry] at h
    rw [Outcome.length_history, ← Except.ok.inj h]
    rfl
  | unbounded =>
    rw [hentry] at h
    rw [Outcome.length_history, ← Except.ok.inj h]
    rfl
  | feasible reduced =>
    rw [hentry] at h
    obtain ⟨report, hreport, h⟩ := exists_of_bind_eq_ok h
    rw [Outcome.length_history, ← Except.ok.inj h]
    simp only [Report.iterations_withNote, iterations_secondReport hreport]
    rfl

theorem iterations_solveSinglePhase {outcome : Outcome α}
    (h : solveSinglePhase problem options = .ok outcome) :
    outcome.report.iterations = outcome.history.length := by
  obtain ⟨report, hreport, h⟩ := exists_of_bind_eq_ok h
  rw [Outcome.length_history, ← Except.ok.inj h]
  simp only [iterations_secondReport hreport]
  rfl

/-- The first phase makes no more pivots than the limit allows. -/
theorem Position.Search.iterations_le {start : Position α} {barred : List Nat} {width : Nat}
    {phase : FirstPhase α} (hs : start.Search options barred width phase) :
    phase.iterations ≤ options.maxIterations := by
  rw [FirstPhase.iterations]
  cases hrun : phase.run with
  | none => exact Nat.zero_le _
  | some run =>
    obtain ⟨-, rfl⟩ := hs.of_run hrun
    exact Position.iterations_run_le _ _ _ _

end Counts

/-- How a solve may go: from the slack basis in one phase, or in two phases. -/
inductive Route (problem : Problem α) (options : Options α) : Outcome α → Prop where
  | single {report : Report α} (hone : options.twoPhase = false)
      (hreport : Concludes problem options (secondRun problem options problem.start 0) report) :
      Route problem options ⟨none, some (secondRun problem options problem.start 0), report⟩
  | double {outcome : Outcome α} (htwo : options.twoPhase = true)
      (hcourse : Course problem options outcome) : Route problem options outcome

/-- The positions from which the costs of a problem are minimised. -/
inductive Problem.Enters (problem : Problem α) (options : Options α) : Position α → Prop where
  | single (hone : options.twoPhase = false) : Enters problem options problem.start
  | double {phase : FirstPhase α} {reduced : Reduced α} (htwo : options.twoPhase = true)
      (hsearch : problem.start.Search options problem.idleColumns
        (problem.dimension + problem.constraints.length) phase)
      (hentry : phase.entry = .feasible reduced) : Enters problem options reduced.position

/-- A solve of an accepted problem with rows takes one of the routes and counts its snapshots. -/
theorem exists_solve_route {problem : Problem α} (h : problem.fault? = none)
    (hrows : problem.constraints ≠ []) (options : Options α) :
    ∃ outcome, solve problem options = .ok (.solved outcome) ∧ Route problem options outcome ∧
      outcome.report.iterations = outcome.history.length := by
  cases hmode : options.twoPhase with
  | true =>
    obtain ⟨outcome, houtcome, hcourse⟩ := exists_solveTwoPhase h options
    exact ⟨outcome, solve_eq_of_twoPhase h hrows hmode houtcome, .double hmode hcourse,
      iterations_solveTwoPhase houtcome⟩
  | false =>
    obtain ⟨report, hreport, hconcludes⟩ :=
      exists_concludes (Problem.framed_start h) problem options 0
    have houtcome : solveSinglePhase problem options
        = .ok ⟨none, some (secondRun problem options problem.start 0), report⟩ := by
      rw [solveSinglePhase, hreport]
      rfl
    exact ⟨_, solve_eq_of_singlePhase h hrows hmode houtcome, .single hmode (hconcludes ""),
      iterations_solveSinglePhase houtcome⟩

/-- Every problem has an answer: no checked step of a solve is refused. -/
theorem exists_answer (problem : Problem α) (options : Options α) :
    ∃ answer, solve problem options = .ok answer := by
  by_cases hrows : problem.constraints = []
  · exact ⟨_, solve_eq_of_nil hrows⟩
  · cases hfault : problem.fault? with
    | some fault => exact ⟨_, solve_eq_of_fault hfault hrows⟩
    | none =>
      obtain ⟨outcome, hsolve, -⟩ := exists_solve_route hfault hrows options
      exact ⟨_, hsolve⟩

/-- Only accepted problems with rows are solved. -/
theorem route_of_solve {problem : Problem α} {options : Options α} {outcome : Outcome α}
    (hsolve : solve problem options = .ok (.solved outcome)) :
    problem.fault? = none ∧ Route problem options outcome := by
  by_cases hrows : problem.constraints = []
  · rw [solve_eq_of_nil hrows] at hsolve
    exact absurd hsolve nofun
  · cases hfault : problem.fault? with
    | some fault =>
      rw [solve_eq_of_fault hfault hrows] at hsolve
      exact absurd hsolve nofun
    | none =>
      obtain ⟨other, hother, hroute, -⟩ := exists_solve_route hfault hrows options
      obtain rfl := Answer.solved.inj (Except.ok.inj (hsolve.symm.trans hother))
      exact ⟨rfl, hroute⟩

/-- The costs are minimised from a framed position. -/
theorem Problem.Enters.framed {problem : Problem α} {options : Options α} {start : Position α}
    (henters : problem.Enters options start) (h : problem.fault? = none) :
    start.Framed (problem.dimension + problem.constraints.length) := by
  cases henters with
  | single => exact framed_start h
  | double _ hsearch hentry => exact hsearch.framed (framed_start h) hentry

/-- The snapshots of a run hold positions that the run visits. -/
theorem Position.Framed.visits_of_mem_snapshots {p : Position α} {width : Nat} (h : p.Framed width)
    {options : Options α} {barred : List Nat} {budget earlier : Nat} {phase : Int}
    {snapshot : Snapshot α}
    (hmem : snapshot ∈ (p.run options barred budget).snapshots phase earlier) :
    p.Visits options barred snapshot.position := by
  have hleads := h.leads_records options barred budget phase earlier
  obtain ⟨before, hrecords⟩ := hleads.exists_of_mem hmem
  exact hrecords.exists_after

namespace Route

variable {problem : Problem α} {options : Options α} {outcome : Outcome α}
  (h : Route problem options outcome)

include h

/-- The first phase makes a run if it takes place and some row lacks a start. -/
theorem of_firstRun {run : Run α} (hrun : outcome.firstRun? = some run) :
    options.twoPhase = true ∧ problem.start.lackingRows options.tolerance ≠ [] ∧
      run = problem.start.firstRun options problem.idleColumns := by
  cases h with
  | single => exact absurd hrun nofun
  | double htwo hcourse =>
    obtain ⟨first, hfirst, hsearch⟩ := hcourse.exists_first
    rw [Outcome.firstRun?, hfirst] at hrun
    obtain ⟨hlacks, rfl⟩ := hsearch.of_run hrun
    exact ⟨htwo, hlacks, rfl⟩

/-- The second phase makes its run from a position that enters it. -/
theorem of_second {run : Run α} (hsecond : outcome.second = some run) :
    ∃ start, problem.Enters options start ∧
      run = secondRun problem options start outcome.firstIterations := by
  cases h with
  | single hone => exact ⟨_, .single hone, (Option.some.inj hsecond).symm⟩
  | double htwo hcourse =>
    obtain ⟨first, reduced, hfirst, hsearch, hentry, hrun⟩ := hcourse.of_second hsecond
    refine ⟨_, .double htwo hsearch hentry, ?_⟩
    rw [hrun, Outcome.firstIterations, hfirst]
    rfl

/-- A problem that is solved is never reported invalid. -/
theorem status_ne_invalid : outcome.report.status ≠ .invalid := by
  cases h with
  | single _ hreport => exact hreport.status_ne_invalid
  | double _ hcourse =>
    cases hcourse with
    | stopped _ _ hstatus => simp [hstatus]
    | infeasible _ _ hstatus => simp [hstatus]
    | unbounded _ _ hstatus => simp [hstatus]
    | second _ _ hreport => exact hreport.status_ne_invalid

/-- An optimal verdict is read off the last position of the second phase. -/
theorem of_optimal
    (hstatus : outcome.report.status = .optimal ∨
      outcome.report.status = .optimalWithAlternatives) :
    ∃ run iterations note, outcome.second = some run ∧ run.ending = .optimal ∧
      outcome.report = (run.last.report problem.dimension problem.objective.sense iterations
        problem.idleColumns options.tolerance).withNote note := by
  cases h with
  | single _ hreport =>
    obtain ⟨hend, iterations, note, hreport⟩ := hreport.of_optimal hstatus
    exact ⟨_, iterations, note, rfl, hend, hreport⟩
  | double _ hcourse =>
    obtain ⟨_, _, run, -, -, -, hsecond, hend, iterations, note, hreport⟩ :=
      hcourse.of_optimal hstatus
    exact ⟨run, iterations, note, hsecond, hend, hreport⟩

/-- Every position shown of the second phase is visited by the run from one that enters it. -/
theorem exists_visits (hfault : problem.fault? = none) {position : Position α}
    (hshows : outcome.Shows position) :
    ∃ start, problem.Enters options start ∧
      start.Visits options problem.idleColumns position := by
  cases hshows with
  | snapshot hmem hphase =>
    obtain ⟨run, hsecond, hown⟩ := Outcome.exists_second_of_mem_history hmem hphase
    obtain ⟨start, henters, rfl⟩ := h.of_second hsecond
    exact ⟨start, henters, (henters.framed hfault).visits_of_mem_snapshots hown⟩
  | last hsecond =>
    obtain ⟨start, henters, rfl⟩ := h.of_second hsecond
    exact ⟨start, henters, (henters.framed hfault).visits_last_run _ _ _⟩

end Route

end SimplexMethod
