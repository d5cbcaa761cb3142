import SimplexMethod.Proofs.Pivoting.Narration
import SimplexMethod.Proofs.Solve.Limit
import SimplexMethod.Proofs.Solve.Replay
import SimplexMethod.Proofs.Solve.Truncation

/-!
# The log of a solve

The log of a solve tells the same story as its history. The lines on pivots are in order those on
the snapshots, numbered from one in each phase. A spent budget is warned of once if it decided the
verdict, and otherwise not. A change to Bland's rule is warned of exactly where a basis of the
phase recurs first while the guard watches. The last event is the end of the solve, unless the
problem was refused. Nothing here depends on the arithmetic.
-/

namespace SimplexMethod

variable {α : Type}

/-- The recorded pivots of one phase, in order. -/
def Result.historyOf (result : Result α) (phase : Int) : List (Snapshot α) :=
  result.history.filter fun snapshot => snapshot.phase = phase

namespace Outcome

variable (outcome : Outcome α)

theorem filter_history (phase : Int) :
    outcome.result.historyOf phase
      = (if 1 = phase then outcome.firstSnapshots else [])
        ++ if 2 = phase then outcome.secondSnapshots else [] := by
  rw [Result.historyOf, result, history_eq, List.filter_append,
    Snapshot.filter_eq_ite fun _ => phase_of_mem_firstSnapshots,
    Snapshot.filter_eq_ite fun _ => phase_of_mem_secondSnapshots]

theorem historyOf_one : outcome.result.historyOf 1 = outcome.firstSnapshots := by
  simp [filter_history]

theorem historyOf_two : outcome.result.historyOf 2 = outcome.secondSnapshots := by
  simp [filter_history]

end Outcome

/-- Only quiet events are told of preparing a tableau. -/
theorem Prepared.quiet_events (prepared : Prepared α) :
    ∀ event ∈ prepared.events, event.Quiet := by
  rw [events]
  split
  · exact nofun
  · exact List.forall_mem_singleton.mpr ⟨rfl, rfl, fun _ => rfl⟩

/-- Only quiet events are told of taking out the artificial columns. -/
theorem Reduced.quiet_events (reduced : Reduced α) : ∀ event ∈ reduced.events, event.Quiet := by
  rw [events]
  split
  · exact nofun
  · exact List.forall_mem_singleton.mpr ⟨rfl, rfl, fun _ => rfl⟩

/-- Besides its run, only quiet events are told of the first phase. -/
theorem FirstPhase.exists_events_eq (first : FirstPhase α) :
    ∃ before after : List (Event α), (∀ event ∈ before, event.Quiet) ∧
      (∀ event ∈ after, event.Quiet) ∧
      first.events = before ++ first.run.elim [] (·.events 1) ++ after := by
  refine ⟨_, _, first.prepared.quiet_events, ?_, rfl⟩
  cases first.entry with
  | feasible reduced => exact reduced.quiet_events
  | infeasible sum => exact List.forall_mem_singleton.mpr ⟨rfl, rfl, fun _ => rfl⟩
  | unbounded => exact List.forall_mem_singleton.mpr ⟨rfl, rfl, fun _ => rfl⟩
  | stopped => exact nofun

namespace Outcome

variable (outcome : Outcome α)

/-- The last event of a solve. -/
def finish : Event α :=
  .finished outcome.report.status outcome.report.objectiveValue outcome.report.iterations

/-- Besides the two runs, only quiet events are told of a solve. -/
theorem exists_events_eq :
    ∃ before between : List (Event α), (∀ event ∈ before, event.Quiet) ∧
      (∀ event ∈ between, event.Quiet) ∧
      outcome.events = before ++ outcome.firstRun?.elim [] (·.events 1) ++ between
        ++ outcome.second.elim [] (·.events 2) ++ [outcome.finish] := by
  obtain ⟨first, second, report⟩ := outcome
  cases first with
  | none => exact ⟨[], [], nofun, nofun, rfl⟩
  | some first =>
    obtain ⟨before, after, hbefore, hafter, hevents⟩ := first.exists_events_eq
    exact ⟨before, after, hbefore, hafter, by rw [events, Option.elim_some, hevents]; rfl⟩

/-- A measure of logs that adds up and does not see quiet events sees only the two runs. -/
theorem countP_events (counted : Event α → Bool) (hquiet : ∀ event : Event α, event.Quiet →
      counted event = false) :
    outcome.events.countP counted
      = (outcome.firstRun?.elim [] (·.events 1)).countP counted
        + (outcome.second.elim [] (·.events 2)).countP counted := by
  obtain ⟨before, between, hbefore, hbetween, hevents⟩ := outcome.exists_events_eq
  have hzero : ∀ log : List (Event α), (∀ event ∈ log, event.Quiet) → log.countP counted = 0 := by
    intro log hlog
    rw [List.countP_eq_zero]
    intro event hmem
    simp [hquiet event (hlog event hmem)]
  have hfinish : ∀ event ∈ [outcome.finish], event.Quiet :=
    List.forall_mem_singleton.mpr ⟨rfl, rfl, fun _ => rfl⟩
  rw [hevents]
  simp only [List.countP_append, hzero before hbefore, hzero between hbetween,
    hzero _ hfinish, Nat.zero_add, Nat.add_zero]

theorem filterMap_pivotLine?_events :
    outcome.events.filterMap Event.pivotLine?
      = (outcome.firstRun?.elim [] (·.events 1)).filterMap Event.pivotLine?
        ++ (outcome.second.elim [] (·.events 2)).filterMap Event.pivotLine? := by
  obtain ⟨before, between, hbefore, hbetween, hevents⟩ := outcome.exists_events_eq
  have hnil : ∀ log : List (Event α), (∀ event ∈ log, event.Quiet) →
      log.filterMap Event.pivotLine? = [] := by
    intro log hlog
    rw [List.filterMap_eq_nil_iff]
    exact fun event hmem => (hlog event hmem).pivotLine?_eq
  rw [hevents]
  simp only [List.filterMap_append, hnil before hbefore, hnil between hbetween, List.nil_append,
    List.append_nil]
  rw [List.filterMap_cons_none rfl, List.filterMap_nil, List.append_nil]

theorem warned_events {cause : Int → Nat → List Nat → Prop}
    (hfirst : Warned cause (outcome.firstRun?.elim [] (·.events 1)))
    (hsecond : Warned cause (outcome.second.elim [] (·.events 2))) :
    Warned cause outcome.events := by
  obtain ⟨before, between, hbefore, hbetween, hevents⟩ := outcome.exists_events_eq
  have hquiet : ∀ log : List (Event α), (∀ event ∈ log, event.Quiet) → Warned cause log := by
    intro log hlog
    exact .of_forall fun event hmem => (hlog event hmem).isChange_eq
  rw [hevents]
  exact ((((hquiet before hbefore).append hfirst).append (hquiet between hbetween)).append
    hsecond).append (.other (fun _ => rfl) .nil)

theorem mem_events_of_first {event : Event α}
    (hmem : event ∈ outcome.firstRun?.elim [] (·.events 1)) : event ∈ outcome.events := by
  obtain ⟨before, between, -, -, hevents⟩ := outcome.exists_events_eq
  rw [hevents]
  simp only [List.mem_append]
  exact .inl (.inl (.inl (.inr hmem)))

theorem mem_events_of_second {event : Event α}
    (hmem : event ∈ outcome.second.elim [] (·.events 2)) : event ∈ outcome.events := by
  obtain ⟨before, between, -, -, hevents⟩ := outcome.exists_events_eq
  rw [hevents]
  simp only [List.mem_append]
  exact .inl (.inr hmem)

theorem getLast?_events : outcome.events.getLast? = some outcome.finish := by
  rw [events, List.getLast?_append]
  rfl

end Outcome

variable [Scalar α]

namespace Problem

variable {problem : Problem α} {options : Options α} {earlier own : List (Snapshot α)}

/-- The positions in which the phases begin: the prepared one, and the one in which the second
phase starts after the snapshots of the first. -/
inductive Begins (problem : Problem α) (options : Options α) (earlier : List (Snapshot α)) :
    Int → Position α → Prop where
  | first {prepared : Prepared α} (htwo : options.twoPhase = true)
      (hprepare : problem.start.prepareAt options.tolerance = .ok prepared) :
      Begins problem options earlier 1 prepared.position
  | second {start : Position α} (hresumes : problem.Resumes options earlier start) :
      Begins problem options earlier 2 start

theorem Resumes.unique {p q : Position α} (hp : problem.Resumes options earlier p)
    (hq : problem.Resumes options earlier q) : p = q := by
  cases hp with
  | single hone =>
    cases hq with
    | single => rfl
    | prepared htwo => exact absurd (hone.symm.trans htwo) nofun
    | reduced htwo => exact absurd (hone.symm.trans htwo) nofun
  | prepared htwo hprepare hnone =>
    cases hq with
    | single hone => exact absurd (hone.symm.trans htwo) nofun
    | prepared _ hprepare' =>
      obtain rfl := Except.ok.inj (hprepare.symm.trans hprepare')
      rfl
    | reduced _ hprepare' hsome =>
      obtain rfl := Except.ok.inj (hprepare.symm.trans hprepare')
      exact absurd hnone hsome
  | reduced htwo hprepare hsome hremove hinstall =>
    cases hq with
    | single hone => exact absurd (hone.symm.trans htwo) nofun
    | prepared _ hprepare' hnone =>
      obtain rfl := Except.ok.inj (hprepare.symm.trans hprepare')
      exact absurd hnone hsome
    | reduced _ hprepare' _ hremove' hinstall' =>
      obtain rfl := Except.ok.inj (hprepare.symm.trans hprepare')
      obtain rfl := Except.ok.inj (hremove.symm.trans hremove')
      obtain rfl := Except.ok.inj (hinstall.symm.trans hinstall')
      rfl

/-- A phase begins in one position only. -/
theorem Begins.unique {phase : Int} {p q : Position α}
    (hp : problem.Begins options earlier phase p)
    (hq : problem.Begins options earlier phase q) : p = q := by
  cases hp with
  | first _ hprepare =>
    cases hq with
    | first _ hprepare' =>
      obtain rfl := Except.ok.inj (hprepare.symm.trans hprepare')
      rfl
  | second hresumes =>
    cases hq with
    | second hresumes' => exact hresumes.unique hresumes'

/-- The lines on the snapshots of a phase, which start where the phase begins. -/
inductive Narrates (problem : Problem α) (options : Options α) (earlier : List (Snapshot α))
    (phase : Int) : List (Snapshot α) → List (PivotLine α) → Prop where
  | silent : Narrates problem options earlier phase [] []
  | told {start : Position α} {own : List (Snapshot α)} {lines : List (PivotLine α)}
      (hbegins : problem.Begins options earlier phase start) (htold : start.Told 0 own lines) :
      Narrates problem options earlier phase own lines

/-- The guard watches the phase, and the pivot of that number leads to the first basis that recurs
in it, which is the given one. -/
structure Switches (problem : Problem α) (options : Options α) (earlier own : List (Snapshot α))
    (phase : Int) (number : Nat) (basis : List Nat) : Prop where
  rule_eq : options.rule = .dantzig
  guard_eq : options.cycleGuard = true
  recurs : ∃ start, problem.Begins options earlier phase start ∧
    FirstRecurs [] (start.basesAlong own) number ∧
    (start.basesAlong own)[number]? = some basis

theorem not_switches_nil {phase : Int} {number : Nat} {basis : List Nat} :
    ¬ problem.Switches options earlier [] phase number basis := by
  rintro ⟨-, -, start, -, hfirst, -⟩
  rw [Position.basesAlong, List.map_nil] at hfirst
  cases number with
  | zero => exact List.not_mem_nil (firstRecurs_cons_zero.mp hfirst)
  | succ place => exact not_firstRecurs_nil (firstRecurs_cons_succ.mp hfirst).2

/-- The run of a phase, if it makes one, starts where the phase begins. -/
inductive Conducts (problem : Problem α) (options : Options α) (earlier : List (Snapshot α))
    (phase : Int) : Option (Run α) → Prop where
  | idle : Conducts problem options earlier phase none
  | made {start : Position α} {width budget : Nat}
      (hbegins : problem.Begins options earlier phase start) (hframed : start.Framed width) :
      Conducts problem options earlier phase
        (some (start.run options problem.idleColumns budget))

namespace Conducts

variable {phase : Int} {run? : Option (Run α)}
  (h : problem.Conducts options earlier phase run?) (n : Nat)

include h

theorem narrates :
    problem.Narrates options earlier phase (run?.elim [] (·.snapshots phase n))
      ((run?.elim [] (·.events phase)).filterMap Event.pivotLine?) := by
  cases h with
  | idle => exact .silent
  | made hbegins hframed => exact .told hbegins (hframed.told_run options _ _ phase n)

/-- What is warned of is a switch. -/
theorem warned {cause : Int → Nat → List Nat → Prop}
    (hcause : ∀ number basis, problem.Switches options earlier
      (run?.elim [] (·.snapshots phase n)) phase number basis → cause phase number basis) :
    Warned cause (run?.elim [] (·.events phase)) := by
  cases h with
  | idle => exact .nil
  | @made start width budget hbegins hframed =>
    refine Run.warned_events fun k pivot hpivot hswitched => hcause _ _ ?_
    obtain ⟨hrule, hguard, hfirst⟩ :=
      (hframed.switched_iff options _ _ phase n hpivot).mp hswitched
    refine ⟨hrule, hguard, start, hbegins, hfirst, ?_⟩
    rw [Option.elim_some, Position.basesAlong, Run.map_basis_snapshots, List.getElem?_cons_succ,
      Run.bases, List.getElem?_map, hpivot]
    rfl

/-- Every switch is warned of. -/
theorem mem_events {number : Nat} {basis : List Nat}
    (hswitches : problem.Switches options earlier (run?.elim [] (·.snapshots phase n)) phase
      number basis) :
    .basisRepeated phase basis ∈ run?.elim [] (·.events phase) := by
  cases h with
  | idle => exact absurd hswitches not_switches_nil
  | @made start width budget hbegins hframed =>
    obtain ⟨hrule, hguard, other, hother, hfirst, hbasis⟩ := hswitches
    obtain rfl := hother.unique hbegins
    cases number with
    | zero => exact absurd (firstRecurs_cons_zero.mp hfirst) List.not_mem_nil
    | succ k =>
      rw [Option.elim_some, Position.basesAlong, Run.map_basis_snapshots, List.getElem?_cons_succ,
        Run.bases, List.getElem?_map, Option.map_eq_some_iff] at hbasis
      obtain ⟨pivot, hpivot, rfl⟩ := hbasis
      have hswitched : pivot.switched = true :=
        (hframed.switched_iff options _ _ phase n hpivot).mpr ⟨hrule, hguard, hfirst⟩
      rw [Option.elim_some, Run.events_eq, List.mem_append]
      refine .inl (Run.mem_told_of_getElem? _ _ phase 0 hpivot _ ?_)
      simp [Pivot.events, hswitched]

theorem countP_isChange_le (other : Int) :
    (run?.elim [] (·.events phase)).countP (Event.isChange other)
      ≤ if phase = other then 1 else 0 := by
  cases h with
  | idle => exact Nat.zero_le _
  | made hbegins hframed =>
    rw [Option.elim_some, Run.countP_isChange_events]
    split
    · exact hframed.countP_switched_le options _ _
    · exact Nat.le_refl 0

end Conducts

end Problem

/-- The log tells of the pivots of the history one by one; it warns of a spent budget if that is
the verdict, and of a change of the rule right after the pivot that switches it; it closes with the
report unless the problem is refused. -/
structure Result.NarratedBy (result : Result α) (problem : Problem α) (options : Options α)
    (log : List (Event α)) : Prop where
  history_eq : result.history = result.historyOf 1 ++ result.historyOf 2
  pivots : ∃ first second, log.filterMap Event.pivotLine? = first ++ second ∧
    problem.Narrates options (result.historyOf 1) 1 (result.historyOf 1) first ∧
    problem.Narrates options (result.historyOf 1) 2 (result.historyOf 2) second
  stopped : log.countP Event.isStopped = if result.report.status = .iterationLimit then 1 else 0
  warned : Warned (fun phase number basis => problem.Switches options (result.historyOf 1)
    (result.historyOf phase) phase number basis) log
  warned_once : ∀ phase, log.countP (Event.isChange phase) ≤ 1
  warns : ∀ phase number basis, problem.Switches options (result.historyOf 1)
    (result.historyOf phase) phase number basis → .basisRepeated phase basis ∈ log
  finished : log.getLast? = some (.finished result.report.status result.report.objectiveValue
    result.report.iterations) ↔ result.report.status ≠ .invalid

/-- A refused problem has no history, and its log has one event. -/
theorem Result.narratedBy_rejected (problem : Problem α) (options : Options α)
    (fault : ProblemFault) (message : String) :
    Result.NarratedBy ⟨[], { status := .invalid, message }⟩ problem options
      [.rejected fault] where
  history_eq := rfl
  pivots := ⟨[], [], rfl, .silent, .silent⟩
  stopped := rfl
  warned := .other (fun _ => rfl) .nil
  warned_once := fun _ => Nat.zero_le 1
  warns := fun _ _ _ hswitches => absurd hswitches Problem.not_switches_nil
  finished := iff_of_false (by simp) (by simp)

namespace Route

variable {problem : Problem α} {options : Options α} {outcome : Outcome α}
  (h : Route problem options outcome)

include h

/-- A run spends its budget if and only if that is the verdict, and only one does. -/
theorem countP_isStopped_events :
    outcome.events.countP Event.isStopped
      = if outcome.report.status = .iterationLimit then 1 else 0 := by
  rw [outcome.countP_events Event.isStopped fun _ hquiet => hquiet.isStopped_eq,
    Run.countP_isStopped_elim, Run.countP_isStopped_elim]
  cases h with
  | single _ hreport => simp [Outcome.firstRun?, hreport.status_eq_iff]
  | double _ hcourse =>
    cases hcourse with
    | stopped hfirst hentry hstatus =>
      simp [Outcome.firstRun?, hfirst.run_stopped_iff, hentry, hstatus]
    | infeasible hfirst hentry hstatus =>
      simp [Outcome.firstRun?, hfirst.run_stopped_iff, hentry, hstatus]
    | unbounded hfirst hentry hstatus =>
      simp [Outcome.firstRun?, hfirst.run_stopped_iff, hentry, hstatus]
    | second hfirst hentry hreport =>
      simp [Outcome.firstRun?, hfirst.run_stopped_iff, hentry, hreport.status_eq_iff]

variable (hfault : problem.fault? = none)

include hfault

theorem conducts_first :
    problem.Conducts options (outcome.result.historyOf 1) 1 outcome.firstRun? := by
  cases hrun : outcome.firstRun? with
  | none => exact .idle
  | some run =>
    have hstart := Problem.framed_start hfault
    obtain ⟨htwo, hlacks, rfl⟩ := h.of_firstRun hrun
    exact .made (.first htwo (hstart.prepareAt_eq_ok options.tolerance)) (hstart.prepare hlacks)

theorem conducts_second :
    problem.Conducts options (outcome.result.historyOf 1) 2 outcome.second := by
  cases hsecond : outcome.second with
  | none => exact .idle
  | some run =>
    obtain ⟨start, hresumes, hframed, rfl⟩ := h.resumes_of_second hfault hsecond
    rw [Outcome.historyOf_one]
    exact .made (.second hresumes) hframed

/-- The log of a solve of an accepted problem tells the story of its history. -/
theorem narratedBy : outcome.result.NarratedBy problem options outcome.events := by
  have hfirst := h.conducts_first hfault
  have hsecond := h.conducts_second hfault
  have hone : outcome.result.historyOf 1 = outcome.firstRun?.elim [] (·.snapshots 1 0) :=
    outcome.historyOf_one.trans outcome.firstSnapshots_eq_elim
  have htwo : outcome.result.historyOf 2
      = outcome.second.elim [] (·.snapshots 2 outcome.firstIterations) := outcome.historyOf_two
  refine
    { history_eq := ?_
      pivots := ⟨_, _, outcome.filterMap_pivotLine?_events, ?_, ?_⟩
      stopped := h.countP_isStopped_events
      warned := ?_
      warned_once := ?_
      warns := ?_
      finished := ?_ }
  · rw [outcome.historyOf_one, outcome.historyOf_two]
    exact outcome.history_eq
  · have hnarrates := hfirst.narrates 0
    rwa [← hone] at hnarrates
  · have hnarrates := hsecond.narrates outcome.firstIterations
    rwa [← htwo] at hnarrates
  · refine outcome.warned_events (hfirst.warned 0 ?_) (hsecond.warned outcome.firstIterations ?_)
    · intro number basis hswitches
      rwa [← hone] at hswitches
    · intro number basis hswitches
      rwa [← htwo] at hswitches
  · intro phase
    rw [outcome.countP_events (Event.isChange phase) fun _ hquiet => hquiet.isChange_eq phase]
    refine (Nat.add_le_add (hfirst.countP_isChange_le phase)
      (hsecond.countP_isChange_le phase)).trans ?_
    split <;> split <;> omega
  · intro phase number basis hswitches
    obtain ⟨start, hbegins, -⟩ := hswitches.recurs
    cases hbegins with
    | first => exact outcome.mem_events_of_first (hfirst.mem_events 0 (by rwa [← hone]))
    | second =>
      exact outcome.mem_events_of_second
        (hsecond.mem_events outcome.firstIterations (by rwa [← htwo]))
  · exact iff_of_true outcome.getLast?_events h.status_ne_invalid

end Route

end SimplexMethod
