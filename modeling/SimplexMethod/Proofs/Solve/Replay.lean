import SimplexMethod.Proofs.Solve.Invariants
import SimplexMethod.Proofs.Solve.Routes

/-!
# Replaying a history

The history of a solve can be replayed: its snapshots are numbered from one without a gap, those of
the first phase come first, and each holds the pivot that it names of the position before it. The
first snapshot of a phase has before it the position in which the phase starts; for the second
phase this is made from the last position of the first. Nothing here depends on the arithmetic.
-/

namespace SimplexMethod

variable {α : Type}

/-- The position that the snapshots lead to from the given one. -/
def Position.reached (start : Position α) (snapshots : List (Snapshot α)) : Position α :=
  (snapshots.getLast?.map Snapshot.position).getD start

theorem Position.reached_cons (start : Position α) (snapshot : Snapshot α)
    (later : List (Snapshot α)) :
    start.reached (snapshot :: later) = snapshot.position.reached later := by
  rw [reached, reached, List.getLast?_cons]
  cases later.getLast? <;> rfl

/-- The snapshots of a run are numbered on from the earlier ones. -/
theorem Run.iteration_getElem_snapshots (run : Run α) (phase : Int) (earlier : Nat) {k : Nat}
    (hk : k < (run.snapshots phase earlier).length) :
    (run.snapshots phase earlier)[k].iteration = earlier + k + 1 := by
  simp [snapshots]

/-- The snapshots of the first phase are numbered from one. -/
theorem FirstPhase.iteration_getElem_snapshots (first : FirstPhase α) {k : Nat}
    (hk : k < first.snapshots.length) : first.snapshots[k].iteration = k + 1 := by
  obtain ⟨prepared, run, entry⟩ := first
  cases run with
  | none => exact absurd hk (Nat.not_lt_zero k)
  | some run =>
    have hnumber := run.iteration_getElem_snapshots 1 0 hk
    rwa [Nat.zero_add] at hnumber

namespace Outcome

variable (outcome : Outcome α) {k : Nat}

theorem iteration_getElem_firstSnapshots (hk : k < outcome.firstSnapshots.length) :
    outcome.firstSnapshots[k].iteration = k + 1 := by
  obtain ⟨first, second, report⟩ := outcome
  cases first with
  | none => exact absurd hk (Nat.not_lt_zero k)
  | some first => exact first.iteration_getElem_snapshots hk

theorem iteration_getElem_secondSnapshots (hk : k < outcome.secondSnapshots.length) :
    outcome.secondSnapshots[k].iteration = outcome.firstIterations + k + 1 := by
  obtain ⟨first, second, report⟩ := outcome
  cases second with
  | none => exact absurd hk (Nat.not_lt_zero k)
  | some run => exact run.iteration_getElem_snapshots 2 _ hk

/-- A history is numbered from one, across both phases. -/
theorem iteration_getElem_history (hk : k < outcome.history.length) :
    outcome.history[k].iteration = k + 1 := by
  simp only [history_eq, List.getElem_append]
  split
  · exact outcome.iteration_getElem_firstSnapshots _
  · rename_i hlt
    rw [length_firstSnapshots, not_lt] at hlt
    rw [iteration_getElem_secondSnapshots, length_firstSnapshots, Nat.add_sub_cancel' hlt]

end Outcome

variable [Scalar α]

/-- The snapshot holds the pivot, which it names, of the position before it. -/
structure Snapshot.Follows (snapshot : Snapshot α) (before : Position α) : Prop where
  leaving_lt : snapshot.leaving < before.tableau.rows.length
  length_basis : before.basis.length = before.tableau.rows.length
  entering_lt : snapshot.entering + 1 < before.tableau.width
  tableau_eq : snapshot.position.tableau = before.tableau.pivot snapshot.leaving snapshot.entering
  basis_eq : snapshot.position.basis = before.basis.set snapshot.leaving snapshot.entering

/-- The position in which the second phase starts after the snapshots of the first. -/
inductive Problem.Resumes (problem : Problem α) (options : Options α)
    (first : List (Snapshot α)) : Position α → Prop where
  | single (hone : options.twoPhase = false) : Resumes problem options first problem.start
  | prepared {prepared : Prepared α} (htwo : options.twoPhase = true)
      (hprepare : problem.start.prepareAt options.tolerance = .ok prepared)
      (hnone : prepared.artificial = []) : Resumes problem options first prepared.position
  | reduced {prepared : Prepared α} {reduced : Reduced α} {tableau : Tableau α}
      (htwo : options.twoPhase = true)
      (hprepare : problem.start.prepareAt options.tolerance = .ok prepared)
      (hsome : prepared.artificial ≠ [])
      (hremove : (prepared.position.reached first).removeArtificialAt prepared.artificial
        options.tolerance = .ok reduced)
      (hinstall : reduced.position.installAt problem.start.tableau.objective = .ok tableau) :
      Resumes problem options first ⟨tableau, reduced.position.basis⟩

/-- The snapshots of both phases can be replayed from where the phases start. -/
structure Problem.Replays (problem : Problem α) (options : Options α)
    (first second : List (Snapshot α)) : Prop where
  phase_first : ∀ snapshot ∈ first, snapshot.phase = 1
  phase_second : ∀ snapshot ∈ second, snapshot.phase = 2
  first_eq_nil : options.twoPhase = false → first = []
  leads_first : first ≠ [] → ∃ prepared,
    problem.start.prepareAt options.tolerance = .ok prepared ∧
      prepared.position.Leads (fun before snapshot => snapshot.Follows before) first
  leads_second : second ≠ [] → ∃ start, problem.Resumes options first start ∧
    start.Leads (fun before snapshot => snapshot.Follows before) second

/-- Nothing has to be replayed where no pivot was made. -/
theorem Problem.Replays.nil (problem : Problem α) (options : Options α) :
    problem.Replays options [] [] where
  phase_first := nofun
  phase_second := nofun
  first_eq_nil := fun _ => rfl
  leads_first := fun hne => absurd rfl hne
  leads_second := fun hne => absurd rfl hne

/-- The report counts the snapshots, which do not exceed the limit, are numbered from one and can be
replayed. -/
structure Result.Faithful (result : Result α) (problem : Problem α) (options : Options α) :
    Prop where
  iterations_eq : result.report.iterations = result.history.length
  length_le : result.history.length ≤ options.maxIterations
  iteration_getElem : ∀ k (hk : k < result.history.length), result.history[k].iteration = k + 1
  replays : ∃ first second, result.history = first ++ second ∧
    problem.Replays options first second

namespace Position

section Run

variable {p : Position α} {width : Nat} (h : p.Framed width) (options : Options α)
  (barred : List Nat) (budget : Nat) (phase : Int) (earlier : Nat)

include h

/-- What a run records follows from the position before it. -/
theorem Framed.follows_of_records {before : Position α} {snapshot : Snapshot α}
    (hrecords : (p.state options).Records (options.setting barred) before snapshot) :
    snapshot.Follows before := by
  obtain ⟨k, rfl, hm, hmoved⟩ := hrecords
  have hframed : ((p.state options).after (options.setting barred) k).position.Framed width :=
    Framed.after (s := p.state options) h _ k
  refine ⟨hm.leaving_lt, hframed.length_basis, ?_, ?_, ?_⟩
  · rw [hframed.hasWidth.width_eq]
    exact Nat.succ_lt_succ (hm.entering_lt hframed.hasWidth)
  · rw [← hmoved]
    rfl
  · rw [← hmoved]
    rfl

/-- The snapshots of a run can be replayed from its start. -/
theorem Framed.leads_snapshots :
    p.Leads (fun before snapshot => snapshot.Follows before)
      ((p.run options barred budget).snapshots phase earlier) :=
  (h.leads_records options barred budget phase earlier).mono
    fun _ _ => h.follows_of_records options barred

/-- A run ends in the position that its snapshots lead to. -/
theorem Framed.last_run_eq_reached :
    (p.run options barred budget).last
      = p.reached ((p.run options barred budget).snapshots phase earlier) := by
  refine Pivoting.run_induction (s := p.state options)
    (motive := fun _ s run => ∀ earlier,
      run.last = s.position.reached (run.snapshots phase earlier)) ?_ ?_ budget
    (Nat.le_of_eq h.length_basis.symm) earlier
  · intro _ s _ _ _ _
    rfl
  · intro _ s entering leaving rest _ hrest earlier
    rw [Run.snapshots_cons, reached_cons]
    exact hrest (earlier + 1)

end Run

end Position

namespace Route

variable {problem : Problem α} {options : Options α} {outcome : Outcome α}
  (h : Route problem options outcome) (hfault : problem.fault? = none)

include h

theorem firstIterations_le : outcome.firstIterations ≤ options.maxIterations := by
  cases h with
  | single => exact Nat.zero_le _
  | double _ hcourse =>
    obtain ⟨first, hfirst, hsearch⟩ := hcourse.exists_first
    rw [Outcome.firstIterations, hfirst]
    exact hsearch.iterations_le

/-- Both phases together make no more pivots than the limit allows. -/
theorem length_history_le : outcome.history.length ≤ options.maxIterations := by
  rw [Outcome.length_history]
  have hfirst := h.firstIterations_le
  cases hsecond : outcome.second with
  | none => exact hfirst
  | some run =>
    obtain ⟨start, -, rfl⟩ := h.of_second hsecond
    have hrun : (secondRun problem options start outcome.firstIterations).iterations
        ≤ options.maxIterations - outcome.firstIterations := start.iterations_run_le _ _ _
    simp only [Option.elim_some]
    omega

include hfault

/-- The snapshots of the first phase can be replayed from the prepared position. -/
theorem leads_first (hfirst : outcome.firstSnapshots ≠ []) :
    ∃ prepared, problem.start.prepareAt options.tolerance = .ok prepared ∧
      prepared.position.Leads (fun before snapshot => snapshot.Follows before)
        outcome.firstSnapshots := by
  rw [Outcome.firstSnapshots_eq_elim] at hfirst ⊢
  cases hrun : outcome.firstRun? with
  | none =>
    rw [hrun] at hfirst
    exact absurd rfl hfirst
  | some run =>
    have hstart := Problem.framed_start hfault
    obtain ⟨-, hlacks, rfl⟩ := h.of_firstRun hrun
    exact ⟨_, hstart.prepareAt_eq_ok options.tolerance,
      (hstart.prepare hlacks).leads_snapshots _ _ _ _ _⟩

/-- The second phase starts where the snapshots of the first one leave off. -/
theorem resumes_of_second {run : Run α} (hsecond : outcome.second = some run) :
    ∃ start, problem.Resumes options outcome.firstSnapshots start ∧
      start.Framed (problem.dimension + problem.constraints.length) ∧
      run = secondRun problem options start outcome.firstIterations := by
  have hstart := Problem.framed_start hfault
  cases h with
  | single hone => exact ⟨_, .single hone, hstart, (Option.some.inj hsecond).symm⟩
  | double htwo hcourse =>
    obtain ⟨first, reduced, hphase, hsearch, hentry, hrun⟩ := hcourse.of_second hsecond
    refine ⟨reduced.position, ?_, hsearch.framed hstart hentry, ?_⟩
    · have hprepare := hstart.prepareAt_eq_ok options.tolerance
      rcases hsearch.of_feasible hentry with ⟨hready, rfl⟩ | ⟨hlacks, -, -, rfl⟩
      · refine .prepared htwo hprepare ?_
        rw [Position.prepare_of_eq_nil hready]
      · obtain ⟨hremove, hframed⟩ := hstart.firstReduced hlacks problem.idleColumns
        have hreached : (problem.start.firstRun options problem.idleColumns).last
            = (problem.start.prepare options.tolerance).position.reached outcome.firstSnapshots := by
          rw [Outcome.firstSnapshots_eq hphase (hsearch.run_eq hlacks)]
          exact (hstart.prepare hlacks).last_run_eq_reached _ _ _ _ _
        refine .reduced htwo hprepare ?_ (hreached ▸ hremove)
          (hframed.installAt_eq_ok hstart.hasWidth.width_eq)
        rw [Position.prepare_of_ne_nil hstart.hasWidth hlacks]
        simpa using hlacks
    · rw [hrun, Outcome.firstIterations, hphase]
      rfl

/-- The history of a solve of an accepted problem can be replayed. -/
theorem replays : problem.Replays options outcome.firstSnapshots outcome.secondSnapshots where
  phase_first := fun _ => Outcome.phase_of_mem_firstSnapshots
  phase_second := fun _ => Outcome.phase_of_mem_secondSnapshots
  first_eq_nil := by
    intro hone
    cases h with
    | single => rfl
    | double htwo => exact absurd (hone.symm.trans htwo) nofun
  leads_first := h.leads_first hfault
  leads_second := by
    intro hne
    rw [Outcome.secondSnapshots] at hne ⊢
    cases hsecond : outcome.second with
    | none =>
      rw [hsecond] at hne
      exact absurd rfl hne
    | some run =>
      obtain ⟨start, hresumes, hframed, rfl⟩ := h.resumes_of_second hfault hsecond
      exact ⟨start, hresumes, hframed.leads_snapshots _ _ _ _ _⟩

end Route

/-- Every solve of a problem with rows gives a history that can be replayed. -/
theorem faithful_solve (problem : Problem α) (options : Options α)
    (hrows : problem.constraints ≠ []) :
    ∃ answer result, solve problem options = .ok answer ∧ answer.result? = some result ∧
      result.Faithful problem options := by
  cases hfault : problem.fault? with
  | some fault =>
    refine ⟨.rejected fault, ⟨[], { status := .invalid, message := fault.message }⟩,
      solve_eq_of_fault hfault hrows, rfl, ?_⟩
    exact
      { iterations_eq := rfl
        length_le := Nat.zero_le _
        iteration_getElem := fun _ hk => absurd hk (Nat.not_lt_zero _)
        replays := ⟨[], [], rfl, .nil problem options⟩ }
  | none =>
    obtain ⟨outcome, hsolve, hroute, hiterations⟩ := exists_solve_route hfault hrows options
    refine ⟨.solved outcome, outcome.result, hsolve, rfl, ?_⟩
    exact
      { iterations_eq := hiterations
        length_le := hroute.length_history_le
        iteration_getElem := fun _ hk => outcome.iteration_getElem_history hk
        replays := ⟨_, _, outcome.history_eq, hroute.replays hfault⟩ }

theorem faithful_retold :
    ∃ outcome : Outcome ℚ, solve .retold {} = .ok (.solved outcome) ∧
      outcome.history.map (fun snapshot => (snapshot.phase, snapshot.iteration))
        = [(1, 1), (1, 2), (2, 3)] ∧
      outcome.result.Faithful Problem.retold {} := by
  obtain ⟨answer, result, hsolve, hresult, hfaithful⟩ :=
    faithful_solve Problem.retold {} (by simp [Problem.retold])
  obtain ⟨outcome, houtcome, -⟩ := @exists_solve_route ℚ _ .retold (by decide +kernel)
    (by simp [Problem.retold]) {}
  obtain rfl := Except.ok.inj (hsolve.symm.trans houtcome)
  obtain rfl := Option.some.inj hresult
  exact ⟨outcome, houtcome, eq_of_solve houtcome (fun o => o.history.map
    fun snapshot => (snapshot.phase, snapshot.iteration)) (by decide +kernel), hfaithful⟩

end SimplexMethod
