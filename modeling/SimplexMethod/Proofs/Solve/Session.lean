import SimplexMethod.Proofs.Document.Fields
import SimplexMethod.Proofs.Solve.Replay
import SimplexMethod.Session

/-!
# A solve as a session

A solve can be taken apart into the commands of a session. A session without recorded pivots that is
given them obeys every one, answers with the runs and the report of the solve, and records its
history. What it tells on the way is what the solve tells before its verdict. A run can be taken
apart further, into single pivots. Nothing here depends on the arithmetic.
-/

namespace SimplexMethod

variable {α : Type}

/-- The snapshots of a run can be recorded for either phase. -/
theorem Run.record_eq_ok {run : Run α} {phase : Int} (hphase : phase ∈ [1, 2])
    (hend : run.ending ≠ .noBasicColumn) (earlier : Nat) :
    run.record phase earlier = .ok (run.snapshots phase earlier) := by
  have hread := Document.readPhase_int hphase
  unfold record
  split
  · rename_i hrefused
    rw [hread] at hrefused
    exact absurd hrefused nofun
  · rename_i hbroken _
    exact absurd hbroken hend
  · rfl

variable [Scalar α]

/-- The commands that make up a first phase, with their answers. -/
def FirstPhase.transcript (first : FirstPhase α) (options : Options α) :
    List (Command α × Reply α) :=
  (.prepare options.tolerance, .prepared) :: first.run.elim [] fun run =>
    (.run 1 options options.maxIterations, .ran run (run.snapshots 1 0)) ::
      match first.entry with
      | .feasible reduced =>
        [(.remove options.tolerance, .removed reduced.dropped), (.install none, .installed)]
      | _ => []

/-- The commands that make up a second phase after `earlier` pivots, with their answers. -/
def Problem.secondTranscript (problem : Problem α) (options : Options α) (earlier : Nat)
    (run : Run α) : List (Command α × Reply α) :=
  (.run 2 options (options.maxIterations - earlier), .ran run (run.snapshots 2 earlier)) ::
    if run.ending = .optimal then
      [(.report options.tolerance,
        .reported (run.last.report problem.dimension problem.objective.sense
          (earlier + run.iterations : Nat) problem.idleColumns options.tolerance))]
    else []

/-- The commands that make up a solve, with their answers. -/
def Outcome.transcript (outcome : Outcome α) (problem : Problem α) (options : Options α) :
    List (Command α × Reply α) :=
  (.build problem, .built) ::
    (outcome.first.elim [] (·.transcript options) ++
      outcome.second.elim [] (problem.secondTranscript options outcome.firstIterations))

namespace Session

/-- The session obeys the commands one after another with the given answers; it tells the events on
the way and is left as the last session. -/
inductive Serves : Session α → List (Command α × Reply α) → List (Event α) → Session α → Prop where
  | done (session : Session α) : Serves session [] [] session
  | obeyed {session next last : Session α} {command : Command α} {reply : Reply α}
      {later : List (Command α × Reply α)} {events : List (Event α)}
      (hobey : session.obey command = .ok (reply, next)) (hlater : Serves next later events last) :
      Serves session ((command, reply) :: later) (session.events command ++ events) last

variable {session : Session α}

namespace Serves

variable {next last : Session α} {earlier later : List (Command α × Reply α)}
  {told events : List (Event α)}

theorem single {command : Command α} {reply : Reply α}
    (hobey : session.obey command = .ok (reply, next)) (hevents : session.events command = told) :
    session.Serves [(command, reply)] told next := by
  have hserves := Serves.obeyed hobey (.done next)
  rwa [List.append_nil, hevents] at hserves

theorem append (h : session.Serves earlier told next) (hlater : next.Serves later events last) :
    session.Serves (earlier ++ later) (told ++ events) last := by
  induction h with
  | done => exact hlater
  | obeyed hobey _ ih =>
    rw [List.cons_append, List.append_assoc]
    exact .obeyed hobey (ih hlater)

end Serves

section Commands

/-- The session is at work on the problem. -/
structure WorksOn (session : Session α) (problem : Problem α) : Prop where
  barred_eq : session.barred = problem.idleColumns
  dimension_eq : session.dimension = problem.dimension
  sense_eq : session.sense = problem.objective.sense
  costs_eq : session.costs = problem.start.tableau.objective

/-- Building leaves the session at work on the problem, in its start position. -/
theorem serves_build (session : Session α) {problem : Problem α} (h : problem.fault? = none) :
    ∃ next : Session α, session.Serves [(.build problem, .built)] [] next ∧
      next.WorksOn problem ∧ next.position = problem.start ∧ next.history = session.history := by
  have hobey : session.obey (.build problem) = .ok (.built,
      { session with
        position := problem.start
        barred := problem.idleColumns
        dimension := problem.dimension
        sense := problem.objective.sense
        costs := problem.start.tableau.objective }) := by
    rw [obey, build, Problem.tableau_eq_ok h]
    rfl
  exact ⟨_, .single hobey rfl, ⟨rfl, rfl, rfl, rfl⟩, rfl, rfl⟩

variable {tolerance : α}

theorem serves_prepare {prepared : Prepared α}
    (h : session.position.prepareAt tolerance = .ok prepared) :
    session.Serves [(.prepare tolerance, .prepared)] prepared.events
      { session with position := prepared.position, artificial := prepared.artificial } := by
  apply Serves.single
  · rw [obey, h]
    rfl
  · simp only [events, h]

theorem serves_run {phase : Int} (hphase : phase ∈ [1, 2]) {options : Options α} {budget : Nat}
    {run : Run α} (h : session.position.run options session.barred budget = run)
    (hend : run.ending ≠ .noBasicColumn) :
    session.Serves
      [(.run phase options budget, .ran run (run.snapshots phase session.history.length))]
      (run.events phase)
      { session with
        position := run.last
        history := session.history ++ run.snapshots phase session.history.length } := by
  have hrecord := run.record_eq_ok hphase hend session.history.length
  apply Serves.single
  · simp only [obey, h, hrecord]
    rfl
  · simp only [events, h, Run.recordEvents, hrecord]

theorem serves_remove {reduced : Reduced α}
    (h : session.position.removeArtificialAt session.artificial tolerance = .ok reduced) :
    session.Serves [(.remove tolerance, .removed reduced.dropped)] reduced.events
      { session with position := reduced.position } := by
  apply Serves.single
  · rw [obey, h]
    rfl
  · simp only [events, h]

/-- Without costs of their own the costs of the session are installed. -/
theorem serves_install (session : Session α) {costs : List α} (hcosts : session.costs = costs)
    {tableau : Tableau α} (h : session.position.installAt costs = .ok tableau) :
    session.Serves [(.install none, .installed)] []
      { session with position := ⟨tableau, session.position.basis⟩ } := by
  refine .single ?_ rfl
  rw [obey, Option.getD_none, hcosts, h]
  rfl

theorem serves_report {report : Report α}
    (h : session.position.reportAt session.dimension session.sense session.history.length
      session.barred tolerance = .ok report) :
    session.Serves [(.report tolerance, .reported report)] [] session := by
  refine .single ?_ rfl
  rw [obey, h]
  rfl

/-- A session makes a pivot that follows from its position. -/
theorem serves_pivot {snapshot : Snapshot α} (h : snapshot.Follows session.position) :
    session.Serves [(.pivot snapshot.leaving snapshot.entering, .pivoted)] []
      { session with position := snapshot.position } := by
  have hpivot : session.position.tableau.pivotAt snapshot.leaving snapshot.entering
      = .ok snapshot.position.tableau := by
    rw [h.tableau_eq]
    exact Tableau.pivotAt_eq_ok (Nat.lt_succ_of_lt h.leaving_lt)
      (Nat.lt_of_succ_lt h.entering_lt)
  have hrow : ¬ session.position.basis.length ≤ snapshot.leaving := by
    rw [h.length_basis, Nat.not_le]
    exact h.leaving_lt
  have hmoved : session.pivot snapshot.leaving snapshot.entering
      = .ok { session with position := snapshot.position } := by
    simp only [pivot, hpivot, bind, Except.bind, if_neg hrow, ← h.basis_eq]
    rfl
  refine .single ?_ rfl
  rw [obey, hmoved]
  rfl

end Commands

section Phases

variable {options : Options α} {width : Nat}

/-- A session without recorded pivots makes the run of a first phase and records it. -/
theorem serves_firstRun (h : session.position.Framed width) (hfresh : session.history = [])
    (hlacks : session.position.lackingRows options.tolerance ≠ []) {run : Run α}
    (hrun : session.position.firstRun options session.barred = run) :
    session.Serves
      [(.prepare options.tolerance, .prepared),
        (.run 1 options options.maxIterations, .ran run (run.snapshots 1 0))]
      ((session.position.prepare options.tolerance).events ++ run.events 1)
      { session with
        position := run.last
        artificial := (session.position.prepare options.tolerance).artificial
        history := run.snapshots 1 0 } := by
  have hend : run.ending ≠ .noBasicColumn := hrun ▸ (h.prepare hlacks).ending_run_ne _ _ _
  have hserves := (serves_prepare (h.prepareAt_eq_ok options.tolerance)).append
    (serves_run (List.mem_cons_self : (1 : Int) ∈ [1, 2]) hrun hend)
  simpa only [hfresh, List.length_nil, List.nil_append, List.cons_append] using hserves

/-- A session without recorded pivots goes through a first phase and records it. What it tells is
what the phase tells, up to what only the phase says of its end. -/
theorem serves_first {first : FirstPhase α}
    (hsearch : session.position.Search options session.barred width first)
    (h : session.position.Framed width) (hfresh : session.history = [])
    (hcosts : session.costs = session.position.tableau.objective) :
    ∃ told position artificial, session.Serves (first.transcript options) told
        { session with position, artificial, history := first.snapshots } ∧
      told <+: first.events ∧
      ∀ reduced, first.entry = .feasible reduced →
        position = reduced.position ∧ told = first.events := by
  cases hsearch with
  | immediate hready =>
    have hserves := serves_prepare (h.prepareAt_eq_ok options.tolerance)
    rw [hfresh] at hserves
    have htold : (session.position.prepare options.tolerance).events
        = FirstPhase.events ⟨session.position.prepare options.tolerance, none,
            .feasible ⟨(session.position.prepare options.tolerance).position, []⟩⟩ := by
      simp [FirstPhase.events, Reduced.events]
    refine ⟨_, _, _, hserves, htold ▸ List.prefix_rfl, ?_⟩
    rintro reduced hentry
    obtain rfl := Entry.feasible.inj hentry
    exact ⟨rfl, htold⟩
  | stopped hlacks hend =>
    exact ⟨_, _, _, serves_firstRun h hfresh hlacks rfl, List.prefix_append _ _, nofun⟩
  | unbounded hlacks hend =>
    exact ⟨_, _, _, serves_firstRun h hfresh hlacks rfl, List.prefix_append _ _, nofun⟩
  | infeasible hlacks hend =>
    exact ⟨_, _, _, serves_firstRun h hfresh hlacks rfl, List.prefix_append _ _, nofun⟩
  | feasible hlacks hend =>
    obtain ⟨hremove, hframed⟩ := h.firstReduced hlacks session.barred
    have hinstall := hframed.installAt_eq_ok h.hasWidth.width_eq
    have hinstalled := serves_install
      { session with
        position := (session.position.firstReduced options session.barred width).position
        artificial := (session.position.prepare options.tolerance).artificial
        history := (session.position.firstRun options session.barred).snapshots 1 0 }
      hcosts hinstall
    have hserves := ((serves_firstRun h hfresh hlacks rfl).append (serves_remove hremove)).append
      hinstalled
    rw [List.append_nil] at hserves
    refine ⟨_, _, _, hserves, ?_, ?_⟩
    · simp only [FirstPhase.events, Reduced.events, Option.elim_some]
      exact List.prefix_rfl
    · rintro reduced hentry
      obtain rfl := Entry.feasible.inj hentry
      exact ⟨rfl, by simp only [FirstPhase.events, Reduced.events, Option.elim_some]⟩

/-- A session at work on a problem makes the run of the second phase and records it after what is
recorded already. If the run ends optimal the session reports its last position. -/
theorem serves_second {problem : Problem α} (hworks : session.WorksOn problem)
    (h : session.position.Framed width) {earlier : Nat} (hearlier : session.history.length = earlier)
    {run : Run α} (hrun : secondRun problem options session.position earlier = run) :
    session.Serves (problem.secondTranscript options earlier run) (run.events 2)
      { session with
        position := run.last
        history := session.history ++ run.snapshots 2 earlier } := by
  subst hearlier
  rw [secondRun, ← hworks.barred_eq] at hrun
  have hend : run.ending ≠ .noBasicColumn := hrun ▸ h.ending_run_ne _ _ _
  have hlast : run.last.Framed width := hrun ▸ h.last_run _ _ _
  have hserves := serves_run (by decide : (2 : Int) ∈ [1, 2]) hrun hend
  unfold Problem.secondTranscript
  split
  · have hreport := hlast.reportAt_eq_ok session.dimension session.sense
      (session.history ++ run.snapshots 2 session.history.length).length session.barred
      options.tolerance
    have hserves := hserves.append (serves_report hreport)
    rw [List.append_nil] at hserves
    simpa only [hworks.barred_eq, hworks.dimension_eq, hworks.sense_eq, List.length_append,
      Run.length_snapshots, List.cons_append, List.nil_append] using hserves
  · exact hserves

end Phases

section Solve

variable {problem : Problem α} {options : Options α}

/-- A session without recorded pivots builds the tableau of a problem and goes through the first
phase of its solve. -/
theorem serves_build_first (hfault : problem.fault? = none) (hfresh : session.history = [])
    {first : FirstPhase α}
    (hsearch : problem.start.Search options problem.idleColumns
      (problem.dimension + problem.constraints.length) first) :
    ∃ told next, session.Serves ((.build problem, .built) :: first.transcript options) told next ∧
      next.WorksOn problem ∧ next.history = first.snapshots ∧ told <+: first.events ∧
      ∀ reduced, first.entry = .feasible reduced →
        next.position = reduced.position ∧ told = first.events := by
  obtain ⟨built, hbuilt, hworks, hposition, hhistory⟩ := session.serves_build hfault
  have hframed := Problem.framed_start hfault
  have hcosts := hworks.costs_eq
  rw [← hposition] at hframed hcosts
  rw [← hposition, ← hworks.barred_eq] at hsearch
  obtain ⟨told, position, artificial, hserves, hprefix, hentered⟩ :=
    serves_first hsearch hframed (hhistory.trans hfresh) hcosts
  refine ⟨told, _, hbuilt.append hserves, ?_, rfl, hprefix, hentered⟩
  exact ⟨hworks.barred_eq, hworks.dimension_eq, hworks.sense_eq, hworks.costs_eq⟩

/-- A session goes through a solve in one phase. -/
theorem serves_single (hfault : problem.fault? = none) (hfresh : session.history = [])
    {run : Run α} (hrun : secondRun problem options problem.start 0 = run) (report : Report α) :
    ∃ last, session.Serves (Outcome.transcript ⟨none, some run, report⟩ problem options)
        (run.events 2) last ∧
      last.history = run.snapshots 2 0 ∧ last.position = run.last := by
  obtain ⟨built, hbuilt, hworks, hposition, hhistory⟩ := session.serves_build hfault
  have hframed := Problem.framed_start hfault
  rw [hfresh] at hhistory
  rw [← hposition] at hframed hrun
  have hserves := serves_second hworks hframed (congrArg List.length hhistory) hrun
  rw [hhistory] at hserves
  exact ⟨_, hbuilt.append hserves, List.nil_append _, rfl⟩

/-- A session goes through a solve in two phases, as far as the solve goes. -/
theorem serves_course (hfault : problem.fault? = none) (hfresh : session.history = [])
    {outcome : Outcome α} (hcourse : Course problem options outcome) :
    ∃ told last, session.Serves (outcome.transcript problem options) told last ∧
      last.history = outcome.history ∧ told <+: outcome.events ∧
      ∀ run, outcome.second = some run → last.position = run.last := by
  obtain ⟨first, hfirst, hsearch⟩ := hcourse.exists_first
  obtain ⟨told, next, hserves, hworks, hhistory, hprefix, hentered⟩ :=
    serves_build_first hfault hfresh hsearch
  cases hsecond : outcome.second with
  | none =>
    refine ⟨told, next, ?_, ?_, ?_, nofun⟩
    · simpa [Outcome.transcript, hfirst, hsecond] using hserves
    · simpa [Outcome.history, hfirst, hsecond] using hhistory
    · rw [Outcome.events, hfirst, Option.elim_some, List.append_assoc]
      exact hprefix.trans (List.prefix_append _ _)
  | some run =>
    obtain ⟨first', reduced, hfirst', -, hentry, hrun⟩ := hcourse.of_second hsecond
    obtain rfl := Option.some.inj (hfirst.symm.trans hfirst')
    obtain ⟨hposition, rfl⟩ := hentered reduced hentry
    have hframed := hsearch.framed (Problem.framed_start hfault) hentry
    rw [← hposition] at hframed hrun
    have hearlier : next.history.length = first.iterations := by
      rw [hhistory, first.length_snapshots]
    have hboth := hserves.append (serves_second hworks hframed hearlier hrun.symm)
    have hiterations : outcome.firstIterations = first.iterations := by
      rw [Outcome.firstIterations, hfirst, Option.elim_some]
    have htranscript : outcome.transcript problem options
        = (.build problem, .built) :: first.transcript options
          ++ problem.secondTranscript options first.iterations run := by
      simp only [Outcome.transcript, hfirst, hsecond, Option.elim_some, hiterations,
        List.cons_append]
    refine ⟨_, _, htranscript ▸ hboth, ?_, ?_, ?_⟩
    · simp only [Outcome.history, hfirst, hsecond, Option.elim_some, hiterations, hhistory]
    · simp only [Outcome.events, hfirst, hsecond, Option.elim_some]
      exact List.prefix_append _ _
    · rintro other hother
      exact congrArg Run.last (Option.some.inj hother)

/-- A session without recorded pivots obeys the commands that make up a solve with the answers that
the solve gives. It records the history of the solve, ends where the last run ends and tells what
the solve tells before its verdict. -/
theorem serves_solve (hfresh : session.history = []) {outcome : Outcome α}
    (hsolve : solve problem options = .ok (.solved outcome)) :
    ∃ told last, session.Serves (outcome.transcript problem options) told last ∧
      last.history = outcome.history ∧ told <+: outcome.events ∧
      ∀ run, outcome.second = some run → last.position = run.last := by
  obtain ⟨hfault, hroute⟩ := route_of_solve hsolve
  cases hroute with
  | @single report =>
    obtain ⟨last, hserves, hhistory, hlast⟩ := session.serves_single hfault hfresh rfl report
    refine ⟨_, last, hserves, hhistory, List.prefix_append _ _, ?_⟩
    rintro run hrun
    exact hlast.trans (congrArg Run.last (Option.some.inj hrun))
  | double _ hcourse => exact serves_course hfault hfresh hcourse

/-- What a session answers last where the verdict is optimal is the report, up to the note that the
solve adds. -/
theorem getLast?_transcript {outcome : Outcome α}
    (hsolve : solve problem options = .ok (.solved outcome))
    (hstatus : outcome.report.status = .optimal ∨
      outcome.report.status = .optimalWithAlternatives) :
    ∃ report note, (outcome.transcript problem options).getLast?
        = some (.report options.tolerance, .reported report) ∧
      outcome.report = report.withNote note := by
  obtain ⟨hfault, hroute⟩ := route_of_solve hsolve
  obtain ⟨run, iterations, note, hsecond, hend, hreport⟩ := hroute.of_optimal hstatus
  have hrows : problem.constraints ≠ [] := by
    intro hnil
    rw [solve_eq_of_nil hnil] at hsolve
    exact absurd hsolve nofun
  have hcounts : outcome.report.iterations = outcome.history.length := by
    obtain ⟨other, hother, -, hcounts⟩ := exists_solve_route hfault hrows options
    obtain rfl := Answer.solved.inj (Except.ok.inj (hsolve.symm.trans hother))
    exact hcounts
  have hiterations : iterations = (outcome.firstIterations + run.iterations : Nat) := by
    rw [hreport, Report.iterations_withNote, Outcome.length_history, hsecond] at hcounts
    exact hcounts
  refine ⟨_, note, ?_, hreport⟩
  rw [Outcome.transcript, hsecond, Option.elim_some, Problem.secondTranscript, if_pos hend,
    hiterations, ← List.cons_append, List.getLast?_append]
  rfl

end Solve

section Pivots

variable {width : Nat}

/-- A session makes pivots that follow one another. -/
theorem serves_pivots {snapshots : List (Snapshot α)}
    (h : session.position.Leads (fun before snapshot => snapshot.Follows before) snapshots) :
    session.Serves
      (snapshots.map fun snapshot => (.pivot snapshot.leaving snapshot.entering, .pivoted)) []
      { session with position := session.position.reached snapshots } := by
  generalize hstart : session.position = start at h ⊢
  induction h generalizing session with
  | nil start =>
    subst hstart
    exact .done session
  | @cons start snapshot later head _ ih =>
    subst hstart
    rw [Position.reached_cons]
    exact (serves_pivot head).append (ih rfl)

/-- The pivots of a run, made one by one, lead a session to where the run ends. -/
theorem serves_pivots_run (h : session.position.Framed width) (options : Options α)
    (barred : List Nat) (budget : Nat) (phase : Int) (earlier : Nat) :
    session.Serves
      (((session.position.run options barred budget).snapshots phase earlier).map fun snapshot =>
        (.pivot snapshot.leaving snapshot.entering, .pivoted)) []
      { session with position := (session.position.run options barred budget).last } := by
  rw [h.last_run_eq_reached options barred budget phase earlier]
  exact serves_pivots (h.leads_snapshots options barred budget phase earlier)

end Pivots

end Session

end SimplexMethod
