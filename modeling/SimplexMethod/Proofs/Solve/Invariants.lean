import SimplexMethod.Proofs.Phases.Idle
import SimplexMethod.Proofs.Solve.History
import SimplexMethod.Proofs.Solve.Verdicts

/-!
# What every snapshot keeps

Each phase starts in a regular position with idle columns that are zero, and the pivots of a run
keep this, so every snapshot is well formed whatever is tolerated. If nothing is tolerated, each
phase starts in a ready position. Then no right-hand side is ever negative, and from one position to
the next that of the objective row rises exactly if the leaving row had a positive one.
-/

namespace SimplexMethod

/-- The lines have one length, the basis is canonical, and the given columns are zero throughout and
never basic. -/
structure Position.WellFormed (p : Position ℚ) (idle : List ℕ) : Prop extends Canonical p where
  hasWidth : p.tableau.HasWidth p.tableau.width
  idle_lt : ∀ column ∈ idle, column + 1 < p.tableau.width
  vanishes : p.tableau.Vanishes idle
  free : ∀ column ∈ p.basis, column ∉ idle

/-- From the position before it to the snapshot the right-hand side of the objective row does not
fall, and it rises exactly if that of the leaving row was positive. -/
structure Snapshot.Climbs (snapshot : Snapshot ℚ) (before : Position ℚ) : Prop where
  leaving_lt : snapshot.leaving < before.tableau.rows.length
  le : rhs before.tableau.objective ≤ rhs snapshot.position.tableau.objective
  lt_iff : rhs before.tableau.objective < rhs snapshot.position.tableau.objective ↔
    0 < rhs (before.tableau.line snapshot.leaving)

namespace Position

variable {p q : Position ℚ} {width : ℕ} {idle : List ℕ} {options : Options ℚ}

theorem Regular.wellFormed (h : p.Regular width idle) (hlt : ∀ j ∈ idle, j < width)
    (hz : p.tableau.Vanishes idle) : p.WellFormed idle where
  toCanonical := h.canonical
  hasWidth := h.hasWidth.width_eq ▸ h.hasWidth
  idle_lt := fun j hj => h.hasWidth.width_eq ▸ Nat.succ_lt_succ (hlt j hj)
  vanishes := hz
  free := h.free

/-- What is recorded from a ready position on climbs. -/
theorem Ready.climbs (h : p.Ready width idle) (htol : options.tolerance = 0)
    {snapshot : Snapshot ℚ}
    (hrecords : (p.state options).Records (options.setting idle) q snapshot) :
    snapshot.Climbs q := by
  obtain ⟨k, rfl, hmoves, hmoved⟩ := hrecords
  have hready := h.of_visits htol.ge (.of_eq_zero htol _ _) ⟨k, rfl⟩
  refine ⟨hmoves.leaving_lt, ?_, ?_⟩
  · rw [← hmoved, hmoves.rhs_objective_le_iff htol.ge hready.hasWidth]
    exact hready.rhs_nonneg _ (Tableau.mem_rows_iff.mpr ⟨_, hmoves.leaving_lt, rfl⟩)
  · rw [← hmoved, hmoves.rhs_objective_lt_iff htol.ge hready.hasWidth]

end Position

namespace Problem.Starts

variable {problem : Problem ℚ} {options : Options ℚ} {phase : Int} {start : Position ℚ}
  (hs : problem.Starts options phase start) (h : problem.fault? = none)

include hs h

/-- Whatever is tolerated, each phase starts in a regular position with zero idle columns. -/
theorem regular (htol : 0 ≤ options.tolerance) :
    ∃ width, (∀ j ∈ problem.idleColumns, j < width) ∧ start.Regular width problem.idleColumns ∧
      start.tableau.Vanishes problem.idleColumns := by
  cases hs with
  | first hlacks =>
    rw [Position.prepare_of_ne_nil (hasWidth_start h) hlacks]
    exact ⟨_, fun j hj => Nat.lt_add_right _ (lt_of_mem_idleColumns hj), regular_auxiliary h,
      vanishes_auxiliary h⟩
  | second hsearch hentry =>
    exact ⟨_, fun _ => lt_of_mem_idleColumns, (regular_of_feasible h htol hsearch hentry).1,
      vanishes_of_feasible h htol hsearch hentry⟩

/-- Without a tolerance each phase starts in a ready position. -/
theorem ready (htol : options.tolerance = 0) :
    ∃ width, start.Ready width problem.idleColumns := by
  cases hs with
  | first hlacks =>
    rw [Position.prepare_of_ne_nil (hasWidth_start h) hlacks]
    exact ⟨_, ready_auxiliary h htol.ge fun _ _ => .of_eq_zero htol _⟩
  | second hsearch hentry => exact ⟨_, (ready_of_feasible h htol hsearch hentry).1⟩

/-- What a phase visits is well formed. -/
theorem wellFormed_of_visits (htol : 0 ≤ options.tolerance) {q : Position ℚ}
    (hv : start.Visits options problem.idleColumns q) : q.WellFormed problem.idleColumns := by
  obtain ⟨width, hlt, hregular, hvanishes⟩ := hs.regular h htol
  exact (hregular.of_visits htol hv).1.wellFormed hlt
    (hregular.vanishes_of_visits htol hlt hvanishes hv)

end Problem.Starts

section History

variable {problem : Problem ℚ} {options : Options ℚ}

/-- Every snapshot is well formed, and so is the position that an optimal report is read off. -/
theorem wellFormed_of_mem_history (h : problem.fault? = none) (hrows : problem.constraints ≠ [])
    (htwo : options.twoPhase = true) (htol : 0 ≤ options.tolerance) :
    ∃ outcome, solve problem options = .ok (.solved outcome) ∧
      (∀ snapshot ∈ outcome.history, snapshot.position.WellFormed problem.idleColumns) ∧
      (outcome.report.status = .optimal ∨ outcome.report.status = .optimalWithAlternatives →
        ∃ run iterations note, outcome.second = some run ∧
          outcome.report
            = (run.last.report problem.dimension problem.objective.sense iterations
              problem.idleColumns options.tolerance).withNote note ∧
          run.last.WellFormed problem.idleColumns) := by
  obtain ⟨outcome, hsolve, hcourse⟩ := exists_solve h hrows htwo
  refine ⟨outcome, hsolve, ?_, ?_⟩
  · intro snapshot hmem
    obtain ⟨start, hstarts, hvisits⟩ := hcourse.exists_visits h hmem
    exact hstarts.wellFormed_of_visits h htol hvisits
  · intro hstatus
    obtain ⟨first, reduced, run, -, -, -, hsecond, -, iterations, note, hreport⟩ :=
      hcourse.of_optimal hstatus
    obtain ⟨start, hstarts, hvisits⟩ := hcourse.exists_visits_last h hsecond
    exact ⟨run, iterations, note, hsecond, hreport, hstarts.wellFormed_of_visits h htol hvisits⟩

/-- Maximise `x + 2y` where `x + y = 2` is stated twice and `y ≥ 1`. -/
def Problem.retold : Problem ℚ where
  objective := ⟨[1, 2], .maximise⟩
  constraints :=
    [{ coefficients := [1, 1], rhs := 2, relation := .equal },
      { coefficients := [1, 1], rhs := 2, relation := .equal },
      { coefficients := [0, 1], rhs := 1, relation := .atLeast }]

theorem wellFormed_retold :
    ∃ outcome run, solve .retold {} = .ok (.solved outcome) ∧ outcome.history.length = 3 ∧
      outcome.second = some run ∧
      (∀ snapshot ∈ outcome.history, snapshot.position.WellFormed [2, 3]) ∧
      run.last.WellFormed [2, 3] := by
  obtain ⟨outcome, hsolve, hhistory, hlast⟩ :=
    @wellFormed_of_mem_history .retold {} (by decide +kernel) (by simp [Problem.retold]) rfl
      (by norm_num)
  have hstatus : outcome.report.status = .optimal := status_of_solve hsolve (by decide +kernel)
  have hlength : outcome.history.length = 3 :=
    eq_of_solve hsolve (·.history.length) (by decide +kernel)
  obtain ⟨run, -, -, hsecond, -, hrun⟩ := hlast (.inl hstatus)
  exact ⟨outcome, run, hsolve, hlength, hsecond, hhistory, hrun⟩

/-- If nothing is tolerated, no snapshot has a constraint row with a negative right-hand side, and
the history of each phase climbs from its start on. -/
theorem climbs_historyOf (h : problem.fault? = none) (hrows : problem.constraints ≠ [])
    (htwo : options.twoPhase = true) (htol : options.tolerance = 0) :
    ∃ outcome, solve problem options = .ok (.solved outcome) ∧
      (∀ snapshot ∈ outcome.history, (∀ row ∈ snapshot.position.tableau.rows, 0 ≤ rhs row) ∧
        ∃ start run, outcome.Runs snapshot.phase start run) ∧
      ∀ phase start run, outcome.Runs phase start run →
        start.Leads (fun before snapshot => snapshot.Climbs before) (outcome.historyOf phase) := by
  obtain ⟨outcome, hsolve, hcourse⟩ := exists_solve h hrows htwo
  refine ⟨outcome, hsolve, ?_, ?_⟩
  · intro snapshot hmem
    obtain ⟨start, hstarts, hvisits⟩ := hcourse.exists_visits h hmem
    obtain ⟨width, hready⟩ := hstarts.ready h htol
    exact ⟨(hready.of_visits htol.ge (.of_eq_zero htol _ _) hvisits).rhs_nonneg,
      hcourse.exists_runs_of_mem_history hmem⟩
  · intro phase start run hruns
    obtain ⟨width, hready⟩ := (hcourse.starts_of_runs hruns).1.ready h htol
    exact (hcourse.leads_historyOf h hruns).mono fun _ _ => hready.climbs htol

theorem climbs_retold :
    ∃ outcome, solve .retold { tolerance := 0 } = .ok (.solved outcome) ∧
      outcome.history.map (fun snapshot => (snapshot.phase, rhs snapshot.position.tableau.objective))
        = [(1, -2), (1, 0), (2, 4)] ∧
      (∀ snapshot ∈ outcome.history, ∀ row ∈ snapshot.position.tableau.rows, 0 ≤ rhs row) ∧
      ∀ phase start run, outcome.Runs phase start run →
        start.Leads (fun before snapshot => snapshot.Climbs before)
          (outcome.historyOf phase) := by
  obtain ⟨outcome, hsolve, hhistory, hclimbs⟩ :=
    @climbs_historyOf .retold { tolerance := 0 } (by decide +kernel) (by simp [Problem.retold]) rfl
      rfl
  have hvalues : outcome.history.map
      (fun snapshot => (snapshot.phase, rhs snapshot.position.tableau.objective))
      = [(1, -2), (1, 0), (2, 4)] :=
    eq_of_solve hsolve (fun o => o.history.map
      fun snapshot => (snapshot.phase, rhs snapshot.position.tableau.objective)) (by decide +kernel)
  exact ⟨outcome, hsolve, hvalues, fun snapshot hmem => (hhistory snapshot hmem).1, hclimbs⟩

end History

end SimplexMethod
