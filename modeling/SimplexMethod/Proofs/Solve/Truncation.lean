import SimplexMethod.Proofs.Solve.Invariants
import SimplexMethod.Proofs.Solve.Routes

/-!
# Solves under different iteration limits

The two runs of a solve share one budget, and what happens between them is not recorded. A solve
that does not report the limit goes the same way under every larger one; a solve that does has
recorded as many pivots as the limit allows, and a larger limit adds to them. So the limit only
truncates. Nothing here depends on the arithmetic.
-/

namespace SimplexMethod

variable {α : Type}

/-- The first result is the second one if it does not report the iteration limit. If it does, it
has as many snapshots as the limit allows, and they are the first ones of the second result. -/
structure Result.Truncates (limit : Nat) (small large : Result α) : Prop where
  eq_of_ne_iterationLimit : small.report.status ≠ .iterationLimit → large = small
  of_iterationLimit : small.report.status = .iterationLimit →
    small.history.length = limit ∧ small.report.iterations = limit ∧
      small.history = large.history.take limit

namespace Result.Truncates

variable {limit : Nat} {small large : Result α}

/-- A result that does not report the limit is the result under every other one. -/
theorem refl (h : small.report.status ≠ .iterationLimit) : Truncates limit small small where
  eq_of_ne_iterationLimit := fun _ => rfl
  of_iterationLimit := fun hlimited => absurd hlimited h

/-- A result that reports the limit after that many pivots, with which the other history begins. -/
theorem of_limited (hstatus : small.report.status = .iterationLimit)
    (hlength : small.history.length = limit)
    (hiterations : small.report.iterations = small.history.length)
    (hle : small.history <+: large.history) : Truncates limit small large where
  eq_of_ne_iterationLimit := fun hne => absurd hstatus hne
  of_iterationLimit := fun _ =>
    ⟨hlength, hiterations.trans (congrArg Nat.cast hlength),
      hlength ▸ List.prefix_iff_eq_take.mp hle⟩

end Result.Truncates

variable [Scalar α]

/-- The options with another iteration limit. -/
def Options.withLimit (options : Options α) (limit : Nat) : Options α :=
  { options with maxIterations := limit }

/-- What is reported of a run says whether its budget was spent. -/
theorem Concludes.status_eq_iff {problem : Problem α} {options : Options α} {run : Run α}
    {report : Report α} (h : Concludes problem options run report) :
    report.status = .iterationLimit ↔ run.ending = .stopped := by
  cases h with
  | optimal hend _ hstatus => rcases hstatus with hstatus | hstatus <;> simp [hstatus, hend]
  | unbounded hend hstatus => simp [hstatus, hend]
  | stopped hend hstatus => simp [hstatus, hend]

section FirstPhase

variable {start : Position α} {options : Options α} {barred : List Nat} {width small large : Nat}

theorem Position.cutsOff_firstRun (start : Position α) (options : Options α) (barred : List Nat)
    (hle : small ≤ large) :
    (start.firstRun (options.withLimit small) barred).CutsOff small
      (start.firstRun (options.withLimit large) barred) :=
  Pivoting.cutsOff_run hle

/-- A first phase that was not stopped is the one under every larger limit: both prepare the same
position and look at the same run. -/
theorem firstPhase_withLimit_eq (h : start.Framed width) (hle : small ≤ large)
    {phase : FirstPhase α} (hphase : firstPhase start (options.withLimit small) barred = .ok phase)
    (hsearch : start.Search (options.withLimit small) barred width phase)
    (hne : phase.entry ≠ .stopped) :
    firstPhase start (options.withLimit large) barred = .ok phase := by
  rw [← hphase]
  by_cases hlacks : start.lackingRows options.tolerance = []
  · rw [h.firstPhase_eq_of_nil (options.withLimit large) hlacks,
      h.firstPhase_eq_of_nil (options.withLimit small) hlacks]
    rfl
  · have hend : (start.firstRun (options.withLimit small) barred).ending ≠ .stopped := by
      intro hend
      cases hsearch with
      | immediate hready => exact hlacks hready
      | stopped => exact hne rfl
      | unbounded _ hother => exact absurd (hend.symm.trans hother) nofun
      | infeasible _ hother => exact absurd (hend.symm.trans hother) nofun
      | feasible _ hother => exact absurd (hend.symm.trans hother) nofun
    have hrun := (start.cutsOff_firstRun options barred hle).eq_of_ne_stopped hend
    rw [firstPhase, firstPhase, h.prepareAt_eq_ok, h.prepareAt_eq_ok]
    simp only [bind, Except.bind]
    rw [← Position.firstRun, hrun]
    rfl

end FirstPhase

section SecondPhase

variable {problem : Problem α} {options : Options α} {small large : Nat}

theorem cutsOff_secondRun (problem : Problem α) (options : Options α) (p : Position α)
    (earlier : Nat) (hle : small ≤ large) :
    (secondRun problem (options.withLimit small) p earlier).CutsOff (small - earlier)
      (secondRun problem (options.withLimit large) p earlier) :=
  Pivoting.cutsOff_run (Nat.sub_le_sub_right hle earlier)

/-- After the same first phase, which has left some budget, the limit truncates the second one. If
the smaller budget is not spent, the second phase makes one run under both limits. -/
theorem truncates_second (problem : Problem α) (options : Options α)
    (first : Option (FirstPhase α)) (earlier : Nat)
    (hearlier : first.elim 0 FirstPhase.iterations = earlier) (hspent : earlier ≤ small)
    (hle : small ≤ large) {p : Position α} {width : Nat} (h : p.Framed width)
    (note : Run α → String) :
    ∃ before after,
      secondReport problem (options.withLimit small) earlier
          (secondRun problem (options.withLimit small) p earlier) = .ok before ∧
        secondReport problem (options.withLimit large) earlier
          (secondRun problem (options.withLimit large) p earlier) = .ok after ∧
        Result.Truncates small
          (Outcome.result ⟨first, some (secondRun problem (options.withLimit small) p earlier),
            before.withNote (note (secondRun problem (options.withLimit small) p earlier))⟩)
          (Outcome.result ⟨first, some (secondRun problem (options.withLimit large) p earlier),
            after.withNote (note (secondRun problem (options.withLimit large) p earlier))⟩) := by
  have hcuts := cutsOff_secondRun problem options p earlier hle
  obtain ⟨before, hbefore, hconcludes⟩ := exists_concludes h problem (options.withLimit small)
    earlier
  by_cases hend : (secondRun problem (options.withLimit small) p earlier).ending = .stopped
  · obtain ⟨after, hafter, -⟩ := exists_concludes h problem (options.withLimit large) earlier
    refine ⟨before, after, hbefore, hafter,
      .of_limited ((hconcludes _).status_eq_iff.mpr hend) ?_ ?_ ?_⟩
    · apply (Outcome.length_history _).trans
      rw [Outcome.firstIterations, hearlier, Option.elim_some, hcuts.spent hend,
        Nat.add_sub_cancel' hspent]
    · simp only [Outcome.result, Outcome.length_history, Outcome.firstIterations, hearlier,
        Report.iterations_withNote, iterations_secondReport hbefore]
      rfl
    · exact (List.prefix_append_right_inj _).mpr (hcuts.snapshots_le 2 _)
  · rw [hcuts.eq_of_ne_stopped hend]
    exact ⟨before, before, hbefore, hbefore,
      .refl fun hstatus => hend ((hconcludes _).status_eq_iff.mp hstatus)⟩

theorem truncates_solveSinglePhase (h : problem.fault? = none) (options : Options α)
    (hle : small ≤ large) :
    ∃ before after, solveSinglePhase problem (options.withLimit small) = .ok before ∧
      solveSinglePhase problem (options.withLimit large) = .ok after ∧
      before.result.Truncates small after.result := by
  obtain ⟨before, after, hbefore, hafter, htruncates⟩ :=
    truncates_second problem options none 0 rfl (Nat.zero_le _) hle (Problem.framed_start h)
      fun _ => ""
  refine ⟨_, _, ?_, ?_, htruncates⟩
  · rw [solveSinglePhase, hbefore]
    rfl
  · rw [solveSinglePhase, hafter]
    rfl

/-- Where the first phase spends the limit, the history is that of its run. -/
theorem truncates_of_first_stopped (h : problem.fault? = none) (hle : small ≤ large)
    {first : FirstPhase α}
    (hfirst : firstPhase problem.start (options.withLimit small) problem.idleColumns = .ok first)
    (hsearch : problem.start.Search (options.withLimit small) problem.idleColumns
      (problem.dimension + problem.constraints.length) first)
    (hstopped : first.entry = .stopped) :
    ∃ before after, solveTwoPhase problem (options.withLimit small) = .ok before ∧
      solveTwoPhase problem (options.withLimit large) = .ok after ∧
      before.result.Truncates small after.result := by
  have hcuts := problem.start.cutsOff_firstRun options problem.idleColumns hle
  obtain ⟨hlacks, hend⟩ := hsearch.of_stopped hstopped
  have hbefore : ∃ before, solveTwoPhase problem (options.withLimit small) = .ok before ∧
      before.first = some first ∧ before.second = none ∧
      before.report.status = .iterationLimit := by
    simp only [solveTwoPhase, hfirst, bind, Except.bind, hstopped]
    exact ⟨_, rfl, rfl, rfl, rfl⟩
  obtain ⟨before, hbefore, hown, hnone, hstatus⟩ := hbefore
  obtain ⟨after, hafter, hcourse⟩ := exists_solveTwoPhase h (options.withLimit large)
  obtain ⟨other, hother, hsearch'⟩ := hcourse.exists_first
  have hhistory : before.history
      = (problem.start.firstRun (options.withLimit small) problem.idleColumns).snapshots 1 0 := by
    rw [Outcome.history_eq, Outcome.firstSnapshots_eq hown (hsearch.run_eq hlacks),
      Outcome.secondSnapshots, hnone, Option.elim_none, List.append_nil]
  refine ⟨before, after, hbefore, hafter, .of_limited hstatus ?_
    (iterations_solveTwoPhase hbefore) ?_⟩
  · calc
      before.history.length
          = (problem.start.firstRun (options.withLimit small) problem.idleColumns).iterations := by
        rw [hhistory, Run.length_snapshots]
      _ = small := hcuts.spent hend
  · have hlonger := hcuts.snapshots_le 1 0
    rw [← hhistory, ← Outcome.firstSnapshots_eq hother (hsearch'.run_eq hlacks)] at hlonger
    exact hlonger.trans (List.prefix_append _ _)

theorem truncates_solveTwoPhase (h : problem.fault? = none) (options : Options α)
    (hle : small ≤ large) :
    ∃ before after, solveTwoPhase problem (options.withLimit small) = .ok before ∧
      solveTwoPhase problem (options.withLimit large) = .ok after ∧
      before.result.Truncates small after.result := by
  have hstart := Problem.framed_start h
  obtain ⟨first, hfirst, hsearch⟩ :=
    hstart.exists_search (options.withLimit small) problem.idleColumns
  by_cases hstopped : first.entry = .stopped
  · exact truncates_of_first_stopped h hle hfirst hsearch hstopped
  have hfirst' := firstPhase_withLimit_eq hstart hle hfirst hsearch hstopped
  cases hentry : first.entry with
  | stopped => exact absurd hentry hstopped
  | infeasible sum =>
    simp only [solveTwoPhase, hfirst, hfirst', bind, Except.bind, hentry]
    exact ⟨_, _, rfl, rfl, .refl (by rintro ⟨⟩)⟩
  | unbounded =>
    simp only [solveTwoPhase, hfirst, hfirst', bind, Except.bind, hentry]
    exact ⟨_, _, rfl, rfl, .refl (by rintro ⟨⟩)⟩
  | feasible reduced =>
    have hspent : first.iterations ≤ small := hsearch.iterations_le
    obtain ⟨before, after, hbefore, hafter, htruncates⟩ :=
      truncates_second problem options (some first) first.iterations rfl hspent hle
        (hsearch.framed hstart hentry)
        fun run => if run.ending = .optimal then droppedNote reduced.dropped else ""
    simp only [solveTwoPhase, hfirst, hfirst', bind, Except.bind, hentry, hbefore, hafter]
    exact ⟨_, _, rfl, rfl, htruncates⟩

end SecondPhase

/-- A smaller iteration limit only truncates: either it changes nothing, or the limit is reported
and the history is cut off there. -/
theorem truncates_solve (problem : Problem α) (options : Options α) {small large : Nat}
    (hle : small ≤ large) :
    ∃ before after, solve problem (options.withLimit small) = .ok before ∧
      solve problem (options.withLimit large) = .ok after ∧
      Option.Rel (Result.Truncates small) before.result? after.result? := by
  by_cases hrows : problem.constraints = []
  · exact ⟨_, _, solve_eq_of_nil hrows, solve_eq_of_nil hrows, .none⟩
  cases hfault : problem.fault? with
  | some fault =>
    exact ⟨_, _, solve_eq_of_fault hfault hrows, solve_eq_of_fault hfault hrows,
      .some (.refl nofun)⟩
  | none =>
    cases hmode : options.twoPhase with
    | true =>
      obtain ⟨before, after, hbefore, hafter, htruncates⟩ :=
        truncates_solveTwoPhase hfault options hle
      exact ⟨_, _, solve_eq_of_twoPhase hfault hrows hmode hbefore,
        solve_eq_of_twoPhase hfault hrows hmode hafter, .some htruncates⟩
    | false =>
      obtain ⟨before, after, hbefore, hafter, htruncates⟩ :=
        truncates_solveSinglePhase hfault options hle
      exact ⟨_, _, solve_eq_of_singlePhase hfault hrows hmode hbefore,
        solve_eq_of_singlePhase hfault hrows hmode hafter, .some htruncates⟩

theorem truncates_retold :
    ∃ before after : Outcome ℚ, solve .retold { maxIterations := 2 } = .ok (.solved before) ∧
      solve .retold { maxIterations := 3 } = .ok (.solved after) ∧
      before.report.status = .iterationLimit ∧ after.report.status = .optimal ∧
      before.report.iterations = 2 ∧ before.history = after.history.take 2 := by
  have hle : 2 ≤ 3 := by decide
  obtain ⟨before, hbefore, -⟩ := @exists_solve_route ℚ _ .retold (by decide +kernel)
    (by simp [Problem.retold]) { maxIterations := 2 }
  obtain ⟨after, hafter, -⟩ := @exists_solve_route ℚ _ .retold (by decide +kernel)
    (by simp [Problem.retold]) { maxIterations := 3 }
  have hstatus : before.report.status = .iterationLimit :=
    status_of_solve hbefore (by decide +kernel)
  obtain ⟨_, _, hsmall, hlarge, htruncates⟩ := truncates_solve .retold ({} : Options ℚ) hle
  obtain rfl := Except.ok.inj (hsmall.symm.trans hbefore)
  obtain rfl := Except.ok.inj (hlarge.symm.trans hafter)
  cases htruncates with
  | some htruncates =>
    obtain ⟨-, hiterations, hhistory⟩ := htruncates.of_iterationLimit hstatus
    exact ⟨before, after, hbefore, hafter, hstatus, status_of_solve hafter (by decide +kernel),
      hiterations, hhistory⟩

end SimplexMethod
