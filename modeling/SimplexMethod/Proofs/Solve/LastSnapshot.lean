import SimplexMethod.Proofs.Solve.Redundancy
import SimplexMethod.Proofs.Solve.Replay

/-!
# The last snapshot of a history

Without a tolerance the last snapshot of a solve with an optimal verdict shows the solution that is
reported, also where the second phase made no pivot, so that the snapshot is one of the first phase
with its artificial columns. Between the two lie the removal of these columns, the dropped rows and
the costs that were installed; none of them moves the basic point, as the artificial columns are
zero.
-/

namespace SimplexMethod

/-- Taking out artificial columns that are zero does not move the basic point. -/
theorem Clearing.Still.point_install_left {p : Position ℚ} {width count : ℕ} {barred : List ℕ}
    {tolerance : ℚ} (hr : p.Regular (width + count) barred)
    (h : Still p.tableau width count barred p.tableau.rows.length
      (p.freeAll (List.range' width count) width tolerance))
    (hzero : ∀ i < p.tableau.rows.length, width ≤ p.basis.getD i 0 →
      rhs (p.tableau.line i) = 0)
    {costs : List ℚ} (hlen : costs.length = width + 1) {j : ℕ} (hj : j < width) :
    Position.point
        ⟨((p.freeAll (List.range' width count) width tolerance).left width).install costs,
          ((p.freeAll (List.range' width count) width tolerance).left width).basis⟩ j
      = p.point j := by
  have hcut : cutAt width p.point = p.point :=
    cutAt_eq_self fun _ hle => hr.canonical.toBasicInRows.point_eq_zero hzero hle
  have hleft := h.toClearing.regular_install_left hlen
  refine (hleft.canonical.eq_point hleft.hasWidth ?_ ?_ j hj).symm
  · rw [Position.solvedBy_install_iff, h.solvedBy_left_iff (h.gap_dropped_eq_zero _), hcut]
    exact hr.canonical.solvedBy_point hr.hasWidth
  · intro k hk hmem
    apply Position.point_of_notMem
    exact fun hbasic => hmem (hr.framed.mem_keptBasis_freeAll hbasic hk tolerance)

namespace Problem

variable {problem : Problem ℚ} {options : Options ℚ}

/-- The solution of a position depends on its basic point only. -/
theorem solution_congr {p q : Position ℚ} (hp : p.basis.Nodup) (hq : q.basis.Nodup)
    (h : ∀ j < problem.dimension, p.point j = q.point j) :
    p.solution problem.dimension = q.solution problem.dimension := by
  rw [solution_eq_withoutSlack hp, solution_eq_withoutSlack hq, withoutSlack, withoutSlack]
  exact List.map_congr_left fun j hj => h j (List.mem_range.mp hj)

/-- The position that enters the second phase has the solution that the first phase ends with. -/
theorem solution_install_firstReduced (h : problem.fault? = none) (htol : 0 ≤ options.tolerance)
    (hlacks : problem.start.lackingRows options.tolerance ≠ [])
    (hd : problem.Discerned options.tolerance)
    (hsum : ¬ problem.start.SumLeft options problem.idleColumns) {p : Position ℚ}
    (hp : (problem.start.firstReduced options problem.idleColumns
      (problem.dimension + problem.constraints.length)).position = p) :
    Position.solution ⟨p.install problem.start.tableau.objective, p.basis⟩ problem.dimension
      = (problem.start.firstRun options problem.idleColumns).last.solution problem.dimension := by
  have hlast := regular_last_firstRun h htol hlacks
  have hstill := still_firstRun h htol hlacks hd hsum
  have hlen := (hasWidth_start h).width_eq
  rw [firstReduced_eq h hlacks] at hp
  subst hp
  apply solution_congr (hstill.toClearing.regular_install_left hlen).canonical.nodup
    hlast.canonical.nodup
  intro j hj
  exact hstill.point_install_left hlast (rhs_line_firstRun_eq_zero h htol hlacks hd hsum) hlen
    (Nat.lt_add_right _ hj)

end Problem

section Reached

variable {α : Type}

theorem Position.reached_of_getLast? {start : Position α} {snapshots : List (Snapshot α)}
    {snapshot : Snapshot α} (h : snapshots.getLast? = some snapshot) :
    start.reached snapshots = snapshot.position := by
  rw [reached, h]
  rfl

theorem Position.reached_of_getLast?_eq_none {start : Position α}
    {snapshots : List (Snapshot α)} (h : snapshots.getLast? = none) :
    start.reached snapshots = start := by
  rw [reached, h]
  rfl

/-- The last snapshot of the first phase holds the position in which its run ends. -/
theorem Position.Search.last_of_getLast? [Scalar α] {start : Position α} {options : Options α}
    {barred : List Nat} {width : Nat} {first : FirstPhase α}
    (hs : start.Search options barred width first) (h : start.Framed width)
    {snapshot : Snapshot α} (hlast : first.snapshots.getLast? = some snapshot) :
    start.lackingRows options.tolerance ≠ [] ∧
      (start.firstRun options barred).last = snapshot.position := by
  cases hrun : first.run with
  | none =>
    rw [FirstPhase.snapshots, hrun] at hlast
    exact absurd hlast (Option.some_ne_none snapshot).symm
  | some run =>
    obtain ⟨hlacks, rfl⟩ := hs.of_run hrun
    rw [FirstPhase.snapshots, hrun] at hlast
    exact ⟨hlacks, ((h.prepare hlacks).last_run_eq_reached _ _ _ _ _).trans
      (reached_of_getLast? hlast)⟩

end Reached

/-- The last snapshot of a solve with an optimal verdict shows the solution that is reported. -/
theorem Course.solution_of_getLast? {problem : Problem ℚ} {options : Options ℚ}
    {outcome : Outcome ℚ} (hcourse : Course problem options outcome)
    (h : problem.fault? = none) (htol : options.tolerance = 0)
    (hstatus : outcome.report.status = .optimal ∨
      outcome.report.status = .optimalWithAlternatives) {snapshot : Snapshot ℚ}
    (hlast : outcome.history.getLast? = some snapshot) :
    ∃ x, snapshot.position.solutionAt problem.dimension = .ok x ∧
      outcome.report.solution = some (x.map fun v => if |v| < 1e-12 then 0 else v) := by
  obtain ⟨first, reduced, run, hfirst, hsearch, hentry, hrun, hsecond, -, iterations, note,
    hreport⟩ := hcourse.phases_of_optimal hstatus
  have hstart := Problem.framed_start h
  have hframed := hsearch.framed hstart hentry
  have hsolution : outcome.report.solution
      = some ((run.last.solution problem.dimension).map fun v =>
          if |v| < 1e-12 then 0 else v) := by
    rw [hreport, Report.solution_withNote, Position.solution_report]
  have hreached : run.last = reduced.position.reached outcome.secondSnapshots := by
    rw [Outcome.secondSnapshots, hsecond, hrun]
    exact hframed.last_run_eq_reached _ _ _ _ _
  rw [Outcome.history_eq, List.getLast?_append] at hlast
  cases hsnapshots : outcome.secondSnapshots.getLast? with
  | some last =>
    rw [hsnapshots] at hlast
    obtain rfl := Option.some.inj hlast
    rw [Position.reached_of_getLast? hsnapshots] at hreached
    have hrunframed : run.last.Framed (problem.dimension + problem.constraints.length) := by
      rw [hrun]
      exact hframed.last_run _ _ _
    rw [hreached] at hrunframed hsolution
    exact ⟨_, hrunframed.solutionAt_eq_ok _, hsolution⟩
  | none =>
    rw [hsnapshots, Option.none_or, Outcome.firstSnapshots, hfirst] at hlast
    rw [Position.reached_of_getLast?_eq_none hsnapshots] at hreached
    obtain ⟨hlacks, hposition⟩ := hsearch.last_of_getLast? hstart hlast
    obtain ⟨hready, -⟩ | ⟨-, -, hsum, hreduced⟩ := hsearch.of_feasible hentry
    · exact absurd hready hlacks
    · have hfirstframed : snapshot.position.Framed _ :=
        hposition ▸ (hstart.prepare hlacks).last_run _ _ _
      have hsame := Problem.solution_install_firstReduced h htol.ge hlacks
        (.of_eq_zero htol problem) hsum rfl
      rw [hreached, hreduced, hsame, hposition] at hsolution
      exact ⟨_, hfirstframed.solutionAt_eq_ok _, hsolution⟩

/-- Without a tolerance the last snapshot of whatever is given with an optimal verdict shows the
solution that is reported, where every entry of magnitude below `10⁻¹²` is replaced by zero. -/
theorem solution_last_snapshot (problem : Problem ℚ) {options : Options ℚ}
    (htwo : options.twoPhase = true) (htol : options.tolerance = 0) :
    ∃ answer, solve problem options = .ok answer ∧
      ∀ result, answer.result? = some result →
        (result.report.status = .optimal ∨ result.report.status = .optimalWithAlternatives) →
          ∀ snapshot, result.history.getLast? = some snapshot →
            ∃ x, snapshot.position.solutionAt problem.dimension = .ok x ∧
              result.report.solution = some (x.map fun v => if |v| < 1e-12 then 0 else v) := by
  by_cases hrows : problem.constraints = []
  · exact ⟨_, solve_eq_of_nil hrows, nofun⟩
  · cases hfault : problem.fault? with
    | some fault =>
      refine ⟨_, solve_eq_of_fault hfault hrows, ?_⟩
      rintro result hresult _ snapshot hlast
      obtain rfl := Option.some.inj hresult
      exact absurd hlast nofun
    | none =>
      obtain ⟨outcome, hsolve, hcourse⟩ := exists_solve hfault hrows htwo
      refine ⟨_, hsolve, ?_⟩
      rintro result hresult hstatus snapshot hlast
      obtain rfl := Option.some.inj hresult
      exact hcourse.solution_of_getLast? hfault htol hstatus hlast

/-- The first phase ends with two artificial columns in the basis, of which one is exchanged and one
is dropped with its row, and the second phase makes no pivot. -/
theorem solution_last_snapshot_crossed :
    ∃ answer result snapshot, solve .crossed { tolerance := 0 } = .ok answer ∧
      answer.result? = some result ∧ result.report.status = .optimal ∧
      result.history.getLast? = some snapshot ∧ snapshot.phase = 1 ∧
      snapshot.position.basis = [0, 7, 1, 6] ∧
      ∃ x, snapshot.position.solutionAt 2 = .ok x ∧
        result.report.solution = some (x.map fun v => if |v| < 1e-12 then 0 else v) := by
  obtain ⟨answer, hsolve, hshows⟩ := @solution_last_snapshot .crossed { tolerance := 0 } rfl rfl
  have hread : ((solve .crossed { tolerance := 0 }).toOption.bind Answer.result?).map
      (fun result => (result.report.status,
        result.history.getLast?.map fun snapshot => (snapshot.phase, snapshot.position.basis)))
      = some (.optimal, some (1, [0, 7, 1, 6])) := by decide +kernel
  rw [hsolve] at hread
  obtain ⟨result, hresult, hread⟩ := Option.map_eq_some_iff.mp hread
  obtain ⟨hstatus, hlast⟩ := Prod.mk.inj hread
  obtain ⟨snapshot, hsnapshot, hread⟩ := Option.map_eq_some_iff.mp hlast
  obtain ⟨hphase, hbasis⟩ := Prod.mk.inj hread
  exact ⟨answer, result, snapshot, hsolve, hresult, hstatus, hsnapshot, hphase, hbasis,
    hshows result hresult (.inl hstatus) snapshot hsnapshot⟩

end SimplexMethod
