import SimplexMethod.Event.Basic
import SimplexMethod.Proofs.Pivoting.Guard

/-!
# What is told of a run

The log of a run tells of its pivots in the order of its snapshots. The line on a pivot names what
the snapshot names, and the column that the position before it holds in the leaving row. A change
to Bland's rule is told right after the pivot whose basis recurs first, and at most once. Nothing
here depends on the arithmetic.
-/

namespace SimplexMethod

variable {α : Type}

/-- What the log tells of a pivot: the phase, the number of the pivot in it, the entering column,
the leaving row, the column that was basic in that row, and the pivot element. -/
structure PivotLine (α : Type) where
  phase : Int
  number : Nat
  entering : Nat
  leaving : Nat
  basic : Nat
  element : α

namespace Event

/-- What the event tells of a pivot, if it is about one. -/
def pivotLine? : Event α → Option (PivotLine α)
  | pivoted phase number pivot =>
    some ⟨phase, number, pivot.entering, pivot.leaving, pivot.basic, pivot.element⟩
  | _ => none

/-- The event warns that a run used up its budget. -/
def isStopped : Event α → Bool
  | stopped _ _ => true
  | _ => false

/-- The event warns that a phase changes to Bland's rule. -/
def isChange (phase : Int) : Event α → Bool
  | basisRepeated own _ => own = phase
  | _ => false

/-- The event is about something else than pivots, spent budgets and changes of the rule. -/
structure Quiet (event : Event α) : Prop where
  pivotLine?_eq : event.pivotLine? = none
  isStopped_eq : event.isStopped = false
  isChange_eq : ∀ phase, event.isChange phase = false

end Event

/-- Every change of the rule that the log warns of has a cause, which is the pivot that the log
tells of right before. -/
inductive Warned (cause : Int → Nat → List Nat → Prop) : List (Event α) → Prop where
  | nil : Warned cause []
  | other {event : Event α} {log : List (Event α)}
      (hother : ∀ phase, event.isChange phase = false) (hlog : Warned cause log) :
      Warned cause (event :: log)
  | change {phase : Int} {number : Nat} {pivot : Pivot α} {basis : List Nat}
      {log : List (Event α)} (hcause : cause phase number basis) (hlog : Warned cause log) :
      Warned cause (.pivoted phase number pivot :: .basisRepeated phase basis :: log)

namespace Warned

variable {cause : Int → Nat → List Nat → Prop} {log later : List (Event α)}

theorem append (h : Warned cause log) (hlater : Warned cause later) :
    Warned cause (log ++ later) := by
  induction h with
  | nil => exact hlater
  | other hother _ ih => exact .other hother ih
  | change hcause _ ih => exact .change hcause ih

theorem of_forall (h : ∀ event ∈ log, ∀ phase, event.isChange phase = false) :
    Warned cause log := by
  induction log with
  | nil => exact .nil
  | cons event log ih =>
    obtain ⟨hevent, hlog⟩ := List.forall_mem_cons.mp h
    exact .other hevent (ih hlog)

end Warned

namespace Pivot

/-- What is told of a pivot with the given number in its phase. -/
def events (pivot : Pivot α) (phase : Int) (number : Nat) : List (Event α) :=
  .pivoted phase number pivot
    :: if pivot.switched then [.basisRepeated phase pivot.after.basis] else []

/-- The line on a pivot with the given number in its phase. -/
def line (pivot : Pivot α) (phase : Int) (number : Nat) : PivotLine α :=
  ⟨phase, number, pivot.entering, pivot.leaving, pivot.basic, pivot.element⟩

variable (pivot : Pivot α) (phase : Int) (number : Nat)

theorem filterMap_pivotLine?_events :
    (pivot.events phase number).filterMap Event.pivotLine? = [pivot.line phase number] := by
  rw [events]
  split <;> rfl

theorem countP_isStopped_events :
    (pivot.events phase number).countP Event.isStopped = 0 := by
  rw [events]
  split <;> rfl

theorem countP_isChange_events (other : Int) :
    (pivot.events phase number).countP (Event.isChange other)
      = if phase = other ∧ pivot.switched = true then 1 else 0 := by
  rw [events]
  by_cases hswitched : pivot.switched = true <;> by_cases hphase : phase = other <;>
    simp [hswitched, hphase, Event.isChange]

variable {pivot phase number} {cause : Int → Nat → List Nat → Prop}

theorem warned_events (h : pivot.switched = true → cause phase number pivot.after.basis) :
    Warned cause (pivot.events phase number) := by
  rw [events]
  split
  · rename_i hswitched
    exact .change (h hswitched) .nil
  · exact .other (fun _ => rfl) .nil

end Pivot

namespace Run

/-- What is told of pivots after those `done` in the same phase. -/
def told (pivots : List (Pivot α)) (phase : Int) (done : Nat) : List (Event α) :=
  (pivots.zipIdx done).flatMap fun (pivot, index) => pivot.events phase (index + 1)

/-- The lines on pivots after those `done` in the same phase. -/
def lines (pivots : List (Pivot α)) (phase : Int) (done : Nat) : List (PivotLine α) :=
  (pivots.zipIdx done).map fun (pivot, index) => pivot.line phase (index + 1)

variable (pivot : Pivot α) (pivots : List (Pivot α)) (phase : Int) (done : Nat) (run : Run α)

@[simp] theorem told_nil : told ([] : List (Pivot α)) phase done = [] := rfl

@[simp] theorem told_cons :
    told (pivot :: pivots) phase done
      = pivot.events phase (done + 1) ++ told pivots phase (done + 1) := by
  simp [told]

@[simp] theorem lines_cons :
    lines (pivot :: pivots) phase done
      = pivot.line phase (done + 1) :: lines pivots phase (done + 1) := by
  simp [lines]

theorem events_eq : run.events phase = told run.pivots phase 0 ++ run.endingEvents phase := rfl

theorem filterMap_pivotLine?_told :
    (told pivots phase done).filterMap Event.pivotLine? = lines pivots phase done := by
  induction pivots generalizing done with
  | nil => rfl
  | cons pivot pivots ih =>
    rw [told_cons, List.filterMap_append, Pivot.filterMap_pivotLine?_events, ih, lines_cons]
    rfl

theorem countP_isStopped_told : (told pivots phase done).countP Event.isStopped = 0 := by
  induction pivots generalizing done with
  | nil => rfl
  | cons pivot pivots ih =>
    rw [told_cons, List.countP_append, Pivot.countP_isStopped_events, ih]

/-- Only the own phase is warned of, and only at pivots that switch the rule. -/
theorem countP_isChange_told (other : Int) :
    (told pivots phase done).countP (Event.isChange other)
      = if phase = other then pivots.countP (·.switched) else 0 := by
  induction pivots generalizing done with
  | nil => simp
  | cons pivot pivots ih =>
    rw [told_cons, List.countP_append, Pivot.countP_isChange_events, ih, List.countP_cons]
    by_cases hphase : phase = other
    · simp [hphase, Nat.add_comm]
    · simp [hphase]

theorem mem_told_of_getElem? {k : Nat} (hpivot : pivots[k]? = some pivot) :
    ∀ event ∈ pivot.events phase (done + k + 1), event ∈ told pivots phase done := by
  intro event hevent
  rw [told, List.mem_flatMap]
  exact ⟨(pivot, done + k), List.mk_add_mem_zipIdx_iff_getElem?.mpr hpivot, hevent⟩

theorem filterMap_pivotLine?_events :
    (run.events phase).filterMap Event.pivotLine? = lines run.pivots phase 0 := by
  have hending : (run.endingEvents phase).filterMap Event.pivotLine? = [] := by
    cases hend : run.ending <;> simp [endingEvents, hend, Event.pivotLine?]
  rw [events_eq, List.filterMap_append, filterMap_pivotLine?_told, hending, List.append_nil]

/-- A spent budget is told of once. -/
theorem countP_isStopped_events :
    (run.events phase).countP Event.isStopped = if run.ending = .stopped then 1 else 0 := by
  rw [events_eq, List.countP_append, countP_isStopped_told, Nat.zero_add]
  cases hend : run.ending <;> simp [endingEvents, hend, Event.isStopped]

/-- A spent budget is told of if there is a run, and it spent its budget. -/
theorem countP_isStopped_elim (run? : Option (Run α)) :
    (run?.elim [] (·.events phase)).countP Event.isStopped
      = if ∃ run ∈ run?, run.ending = .stopped then 1 else 0 := by
  cases run? with
  | none => rfl
  | some run => simp [countP_isStopped_events]

theorem isChange_endingEvents (other : Int) :
    ∀ event ∈ run.endingEvents phase, event.isChange other = false := by
  cases hend : run.ending <;> simp [endingEvents, hend, Event.isChange]

theorem countP_isChange_events (other : Int) :
    (run.events phase).countP (Event.isChange other)
      = if phase = other then run.pivots.countP (·.switched) else 0 := by
  have hending : (run.endingEvents phase).countP (Event.isChange other) = 0 := by
    rw [List.countP_eq_zero]
    intro event hevent
    simp [run.isChange_endingEvents phase other event hevent]
  rw [events_eq, List.countP_append, countP_isChange_told, hending, Nat.add_zero]

variable {pivots phase done run} {cause : Int → Nat → List Nat → Prop}

theorem warned_told
    (h : ∀ k pivot, pivots[k]? = some pivot → pivot.switched = true →
      cause phase (done + k + 1) pivot.after.basis) :
    Warned cause (told pivots phase done) := by
  induction pivots generalizing done with
  | nil => exact .nil
  | cons pivot pivots ih =>
    rw [told_cons]
    refine .append (Pivot.warned_events (h 0 pivot rfl)) (ih ?_)
    intro k later hlater
    rw [Nat.add_right_comm done 1 k]
    exact h (k + 1) later hlater

theorem warned_events
    (h : ∀ k pivot, run.pivots[k]? = some pivot → pivot.switched = true →
      cause phase (k + 1) pivot.after.basis) :
    Warned cause (run.events phase) := by
  rw [events_eq]
  refine .append (warned_told ?_) (.of_forall fun event hevent other =>
    run.isChange_endingEvents phase other event hevent)
  intro k pivot hpivot hswitched
  rw [Nat.zero_add]
  exact h k pivot hpivot hswitched

end Run

variable [Scalar α]

/-- The line tells of the pivot of the snapshot, which is the one of that number in its phase, in
the words of the position before it. -/
structure PivotLine.Tells (line : PivotLine α) (before : Position α) (number : Nat)
    (snapshot : Snapshot α) : Prop where
  phase_eq : line.phase = snapshot.phase
  number_eq : line.number = number
  entering_eq : line.entering = snapshot.entering
  leaving_eq : line.leaving = snapshot.leaving
  basic_eq : before.basis[snapshot.leaving]? = some line.basic
  element_eq : line.element = before.tableau.entry snapshot.leaving snapshot.entering

/-- The lines tell of the snapshots one by one, in order and numbered on from those `done`. -/
inductive Position.Told : Position α → Nat → List (Snapshot α) → List (PivotLine α) → Prop where
  | nil (start : Position α) (done : Nat) : Told start done [] []
  | cons {start : Position α} {done : Nat} {snapshot : Snapshot α} {later : List (Snapshot α)}
      {line : PivotLine α} {lines : List (PivotLine α)} (head : line.Tells start (done + 1) snapshot)
      (tail : Told snapshot.position (done + 1) later lines) :
      Told start done (snapshot :: later) (line :: lines)

namespace Pivoting

variable {setting : Setting α} {s : State α}

/-- The line on a recorded pivot tells of its snapshot. -/
theorem tells_record {entering leaving : Nat} (hleaving : leaving < s.position.basis.length)
    (phase : Int) (number iteration : Nat) :
    ((s.record setting entering leaving).line phase number).Tells s.position number
      ⟨phase, iteration, entering, leaving, s.moved entering leaving⟩ where
  phase_eq := rfl
  number_eq := rfl
  entering_eq := rfl
  leaving_eq := rfl
  basic_eq := by
    change s.position.basis[leaving]? = some (s.position.basis.getD leaving 0)
    rw [List.getD_eq_getElem?_getD, List.getElem?_eq_getElem hleaving, Option.getD_some]
  element_eq := rfl

/-- The lines on the pivots of a run tell of its snapshots. -/
theorem told_run (h : s.position.tableau.rows.length ≤ s.position.basis.length) (budget : Nat)
    (phase : Int) (earlier done : Nat) :
    s.position.Told done ((run setting budget s).snapshots phase earlier)
      (Run.lines (run setting budget s).pivots phase done) := by
  refine run_induction
    (motive := fun _ s run => s.position.tableau.rows.length ≤ s.position.basis.length →
      ∀ earlier done, s.position.Told done (run.snapshots phase earlier)
        (Run.lines run.pivots phase done)) ?_ ?_ budget h h earlier done
  · intro _ s _ _ _ _ _ done
    exact .nil s.position done
  · intro _ s entering leaving rest hm hrest hrows earlier done
    rw [Run.snapshots_cons, Run.lines_cons]
    refine .cons (tells_record (Nat.lt_of_lt_of_le hm.leaving_lt hrows) _ _ _) (hrest ?_ _ _)
    simpa [State.next, State.record, State.moved] using hrows

/-- A pivot switches the rule if the guard watches and its basis is the first that recurs. After
that the rule is switched for good, and the basis that did it is an old one. -/
theorem switched_iff (h : s.position.tableau.rows.length ≤ s.position.basis.length)
    (budget : Nat) :
    ∀ k pivot, (run setting budget s).pivots[k]? = some pivot →
      (pivot.switched = true ↔ s.rule = .dantzig ∧ setting.cycleGuard = true ∧
        FirstRecurs s.seen (run setting budget s).bases k) := by
  refine run_induction
    (motive := fun _ s run => ∀ k pivot, run.pivots[k]? = some pivot →
      (pivot.switched = true ↔ s.rule = .dantzig ∧ setting.cycleGuard = true ∧
        FirstRecurs s.seen run.bases k)) ?_ ?_ budget h
  · intro _ _ _ _ _ k pivot hpivot
    exact absurd hpivot nofun
  · intro _ s entering leaving rest _ hrest k pivot hpivot
    have hswitched : (s.record setting entering leaving).switched = true ↔
        s.rule = .dantzig ∧ setting.cycleGuard = true ∧
          (s.moved entering leaving).basis ∈ s.seen := by
      simp only [State.record, State.switches, Bool.and_eq_true, decide_eq_true_eq]
      rw [and_assoc, and_left_comm]
    have hbases : ({ rest with pivots := s.record setting entering leaving :: rest.pivots } :
        Run α).bases = (s.moved entering leaving).basis :: rest.bases := rfl
    rw [hbases]
    cases k with
    | zero =>
      obtain rfl := Option.some.inj hpivot
      rw [firstRecurs_cons_zero, hswitched]
    | succ k =>
      rw [hrest k pivot hpivot, firstRecurs_cons_succ]
      by_cases hold : (s.record setting entering leaving).switched = true
      · have hmem := (hswitched.mp hold).2.2
        simp [State.next, hold, hmem]
      · simp only [State.next, hold, Bool.false_eq_true, if_false]
        constructor
        · rintro ⟨hrule, hguard, hfirst⟩
          exact ⟨hrule, hguard, fun hmem => hold (hswitched.mpr ⟨hrule, hguard, hmem⟩), hfirst⟩
        · rintro ⟨hrule, hguard, -, hfirst⟩
          exact ⟨hrule, hguard, hfirst⟩

/-- At most one pivot of a run switches the rule, and none under Bland's rule. -/
theorem countP_switched_le (h : s.position.tableau.rows.length ≤ s.position.basis.length)
    (budget : Nat) :
    (run setting budget s).pivots.countP (·.switched)
      ≤ if s.rule = .dantzig then 1 else 0 := by
  refine run_induction
    (motive := fun _ s run => run.pivots.countP (·.switched) ≤ if s.rule = .dantzig then 1 else 0)
    ?_ ?_ budget h
  · intro _ _ _ _ _
    exact Nat.zero_le _
  · intro _ s entering leaving rest _ hrest
    rw [List.countP_cons]
    by_cases hswitched : (s.record setting entering leaving).switched = true
    · have hrule : s.rule = .dantzig := by
        simp only [State.record, State.switches, Bool.and_eq_true, decide_eq_true_eq] at hswitched
        exact hswitched.1.2
      simp only [State.next, hswitched, if_true] at hrest ⊢
      simpa [hrule] using hrest
    · simp only [State.next, hswitched, Bool.false_eq_true, if_false] at hrest ⊢
      exact hrest

end Pivoting

namespace Position

section Run

variable {start : Position α} {width : Nat} (h : start.Framed width) (options : Options α)
  (barred : List Nat) (budget : Nat) (phase : Int) (earlier : Nat)

include h

/-- The log of a run tells of its snapshots. -/
theorem Framed.told_run :
    start.Told 0 ((start.run options barred budget).snapshots phase earlier)
      (((start.run options barred budget).events phase).filterMap Event.pivotLine?) := by
  rw [Run.filterMap_pivotLine?_events]
  exact Pivoting.told_run (s := start.state options) (Nat.le_of_eq h.length_basis.symm) budget
    phase earlier 0

/-- A pivot switches the rule where a basis recurs first along the run, its start included. -/
theorem Framed.switched_iff {k : Nat} {pivot : Pivot α}
    (hpivot : (start.run options barred budget).pivots[k]? = some pivot) :
    pivot.switched = true ↔ options.rule = .dantzig ∧ options.cycleGuard = true ∧
      FirstRecurs []
        (start.basesAlong ((start.run options barred budget).snapshots phase earlier))
        (k + 1) := by
  rw [basesAlong, Run.map_basis_snapshots, firstRecurs_cons_succ]
  simp only [List.not_mem_nil, not_false_eq_true, true_and]
  exact Pivoting.switched_iff (s := start.state options) (Nat.le_of_eq h.length_basis.symm) budget
    k pivot hpivot

theorem Framed.countP_switched_le :
    (start.run options barred budget).pivots.countP (·.switched) ≤ 1 := by
  have hle := @Pivoting.countP_switched_le _ _ (options.setting barred) (start.state options)
    (Nat.le_of_eq h.length_basis.symm) budget
  refine Nat.le_trans hle ?_
  split
  · exact Nat.le_refl 1
  · exact Nat.zero_le 1

end Run

end Position

end SimplexMethod
