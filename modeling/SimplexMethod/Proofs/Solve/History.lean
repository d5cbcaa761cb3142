import SimplexMethod.Proofs.Pivoting.Snapshots
import SimplexMethod.Proofs.Solve.Course

/-!
# The history of a solve

The history of a solve in two phases is made of the runs of its phases. So each snapshot records a
pivot of the trace from the position in which its phase starts: the prepared position in the first
phase, the one that enters the second phase in the second. Nothing here depends on the arithmetic.
-/

namespace SimplexMethod

variable {α : Type}

namespace Outcome

/-- The recorded pivots of one phase, in order. -/
def historyOf (outcome : Outcome α) (phase : Int) : List (Snapshot α) :=
  outcome.history.filter fun snapshot => snapshot.phase = phase

/-- The phase started in the given position and made the given run. -/
inductive Runs (outcome : Outcome α) : Int → Position α → Run α → Prop where
  | first {first : FirstPhase α} {run : Run α} (hfirst : outcome.first = some first)
      (hrun : first.run = some run) : Runs outcome 1 first.prepared.position run
  | second {first : FirstPhase α} {reduced : Reduced α} {run : Run α}
      (hfirst : outcome.first = some first) (hentry : first.entry = .feasible reduced)
      (hsecond : outcome.second = some run) : Runs outcome 2 reduced.position run

end Outcome

/-- Of snapshots that belong to one phase all or none belong to another. -/
theorem Snapshot.filter_eq_ite {snapshots : List (Snapshot α)} {own : Int}
    (h : ∀ snapshot ∈ snapshots, snapshot.phase = own) (phase : Int) :
    snapshots.filter (fun snapshot => snapshot.phase = phase)
      = if own = phase then snapshots else [] := by
  split
  · rename_i heq
    refine List.filter_eq_self.mpr fun snapshot hmem => ?_
    rw [h snapshot hmem]
    exact decide_eq_true heq
  · rename_i hne
    refine List.filter_eq_nil_iff.mpr fun snapshot hmem => ?_
    rw [h snapshot hmem]
    simpa using hne

theorem Run.filter_snapshots (run : Run α) (own phase : Int) (earlier : Nat) :
    (run.snapshots own earlier).filter (fun snapshot => snapshot.phase = phase)
      = if own = phase then run.snapshots own earlier else [] :=
  Snapshot.filter_eq_ite (fun _ => phase_of_mem_snapshots) phase

/-- The history of a phase is that of its run. -/
theorem Outcome.Runs.exists_historyOf_eq {outcome : Outcome α} {phase : Int} {start : Position α}
    {run : Run α} (h : outcome.Runs phase start run) :
    ∃ earlier, outcome.historyOf phase = run.snapshots phase earlier := by
  rw [historyOf, history, List.filter_append]
  cases h with
  | @first first run hfirst hrun =>
    refine ⟨0, ?_⟩
    cases hsecond : outcome.second with
    | none => simp [hfirst, FirstPhase.snapshots, hrun, Run.filter_snapshots]
    | some second => simp [hfirst, FirstPhase.snapshots, hrun, Run.filter_snapshots]
  | @second first reduced run hfirst hentry hsecond =>
    refine ⟨outcome.firstIterations, ?_⟩
    cases hrun : first.run with
    | none => simp [hfirst, FirstPhase.snapshots, hrun, hsecond, Run.filter_snapshots]
    | some run => simp [hfirst, FirstPhase.snapshots, hrun, hsecond, Run.filter_snapshots]

variable [Scalar α]

/-- The positions in which the phases of a solve may start. -/
inductive Problem.Starts (problem : Problem α) (options : Options α) : Int → Position α → Prop where
  | first (hlacks : problem.start.lackingRows options.tolerance ≠ []) :
      Starts problem options 1 (problem.start.prepare options.tolerance).position
  | second {phase : FirstPhase α} {reduced : Reduced α}
      (hsearch : problem.start.Search options problem.idleColumns
        (problem.dimension + problem.constraints.length) phase)
      (hentry : phase.entry = .feasible reduced) : Starts problem options 2 reduced.position

namespace Course

variable {problem : Problem α} {options : Options α} {outcome : Outcome α}
  (h : Course problem options outcome)

include h

/-- A second phase makes its run from the position that enters it. -/
theorem of_second {run : Run α} (hsecond : outcome.second = some run) :
    ∃ first reduced, outcome.first = some first ∧
      problem.start.Search options problem.idleColumns
        (problem.dimension + problem.constraints.length) first ∧
      first.entry = .feasible reduced ∧
      run = secondRun problem options reduced.position first.iterations := by
  cases h with
  | stopped => exact absurd hsecond nofun
  | infeasible => exact absurd hsecond nofun
  | unbounded => exact absurd hsecond nofun
  | second hfirst hentry => exact ⟨_, _, rfl, hfirst, hentry, (Option.some.inj hsecond).symm⟩

/-- Every run of a phase is one from a start of the phase under the given options. -/
theorem starts_of_runs {phase : Int} {start : Position α} {run : Run α}
    (hruns : outcome.Runs phase start run) :
    problem.Starts options phase start ∧
      ∃ budget, run = start.run options problem.idleColumns budget := by
  obtain ⟨first, hfirst, hsearch⟩ := h.exists_first
  cases hruns with
  | first hown hrun =>
    obtain rfl := Option.some.inj (hfirst.symm.trans hown)
    obtain ⟨hlacks, rfl⟩ := hsearch.of_run hrun
    rw [hsearch.prepared_eq]
    exact ⟨.first hlacks, _, rfl⟩
  | second hown hentry hsecond =>
    obtain ⟨first', reduced', hfirst', -, hentry', rfl⟩ := h.of_second hsecond
    obtain rfl := Option.some.inj (hfirst.symm.trans hown)
    obtain rfl := Option.some.inj (hfirst.symm.trans hfirst')
    obtain rfl := Entry.feasible.inj (hentry.symm.trans hentry')
    exact ⟨.second hsearch hentry, _, rfl⟩

/-- Every snapshot belongs to a phase that made a run. -/
theorem exists_runs_of_mem_history {snapshot : Snapshot α} (hmem : snapshot ∈ outcome.history) :
    ∃ start run, outcome.Runs snapshot.phase start run := by
  rcases List.mem_append.mp hmem with hmem | hmem
  · obtain ⟨first, hfirst, -⟩ := h.exists_first
    rw [hfirst] at hmem
    cases hrun : first.run with
    | none => simp [FirstPhase.snapshots, hrun] at hmem
    | some run =>
      simp only [FirstPhase.snapshots, hrun, Option.elim_some] at hmem
      rw [Run.phase_of_mem_snapshots hmem]
      exact ⟨_, _, .first hfirst hrun⟩
  · cases hsecond : outcome.second with
    | none => simp [hsecond] at hmem
    | some run =>
      simp only [hsecond, Option.elim_some] at hmem
      obtain ⟨first, reduced, hfirst, -, hentry, -⟩ := h.of_second hsecond
      rw [Run.phase_of_mem_snapshots hmem]
      exact ⟨_, _, .second hfirst hentry hsecond⟩

end Course

namespace Problem

variable {problem : Problem α} {options : Options α}

/-- Every phase starts from a framed position. -/
theorem Starts.exists_framed {phase : Int} {start : Position α} (h : problem.fault? = none)
    (hs : problem.Starts options phase start) : ∃ width, start.Framed width := by
  cases hs with
  | first hlacks => exact ⟨_, (framed_start h).prepare hlacks⟩
  | second hsearch hentry => exact ⟨_, hsearch.framed (framed_start h) hentry⟩

end Problem

section Leads

variable {problem : Problem α} {options : Options α} {outcome : Outcome α}
  (h : problem.fault? = none) (hcourse : Course problem options outcome)

include h hcourse

/-- The history of a phase leads from its start along the trace. -/
theorem Course.leads_historyOf {phase : Int} {start : Position α} {run : Run α}
    (hruns : outcome.Runs phase start run) :
    start.Leads ((start.state options).Records (options.setting problem.idleColumns))
      (outcome.historyOf phase) := by
  obtain ⟨hstarts, budget, rfl⟩ := hcourse.starts_of_runs hruns
  obtain ⟨width, hframed⟩ := hstarts.exists_framed h
  obtain ⟨earlier, heq⟩ := hruns.exists_historyOf_eq
  rw [heq]
  exact hframed.leads_records options problem.idleColumns budget phase earlier

/-- Every snapshot holds a position that the trace from a start of its phase visits. -/
theorem Course.exists_visits {snapshot : Snapshot α} (hmem : snapshot ∈ outcome.history) :
    ∃ start, problem.Starts options snapshot.phase start ∧
      start.Visits options problem.idleColumns snapshot.position := by
  obtain ⟨start, run, hruns⟩ := hcourse.exists_runs_of_mem_history hmem
  have hown : snapshot ∈ outcome.historyOf snapshot.phase :=
    List.mem_filter.mpr ⟨hmem, decide_eq_true rfl⟩
  obtain ⟨before, hrecords⟩ := (hcourse.leads_historyOf h hruns).exists_of_mem hown
  exact ⟨start, (hcourse.starts_of_runs hruns).1, hrecords.exists_after⟩

/-- The second phase ends in a position that the trace from a start of it visits. -/
theorem Course.exists_visits_last {run : Run α} (hsecond : outcome.second = some run) :
    ∃ start, problem.Starts options 2 start ∧
      start.Visits options problem.idleColumns run.last := by
  obtain ⟨first, reduced, -, hsearch, hentry, rfl⟩ := hcourse.of_second hsecond
  exact ⟨_, .second hsearch hentry,
    (hsearch.framed (Problem.framed_start h) hentry).visits_last_run _ _ _⟩

end Leads

end SimplexMethod
