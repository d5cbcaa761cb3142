import Mathlib.Logic.Function.Iterate
import SimplexMethod.Pivoting.Run
import SimplexMethod.Proofs.Tableau.Shape

/-!
# The trace of a run

One step of a run makes the next pivot and stays where no pivot is made. A run is the repetition
of this step: its pivots are those of the first states, its last position is that of the state
after them, and its ending says why no further pivot followed. What every step keeps holds in
every state of a run.

## Implementation notes

States are numbered by the pivots made so far. The step is total, so a state exists for each
number; past the end of a run the numbers repeat its last state.
-/

namespace SimplexMethod

namespace Pivoting

variable {α : Type} [Scalar α]

namespace State

/-- The next pivot lets the column enter and the row leave. -/
structure Moves (s : State α) (setting : Setting α) (entering leaving : Nat) : Prop where
  enters : s.entering? setting = some entering
  leaves : s.leaving? setting entering = some leaving

/-- The state after the next pivot; it stays where no pivot is made. -/
def advance (setting : Setting α) (s : State α) : State α :=
  match s.entering? setting with
  | none => s
  | some entering =>
    match s.leaving? setting entering with
    | none => s
    | some leaving => s.next (s.record setting entering leaving)

/-- The state after the given number of pivots. -/
def after (s : State α) (setting : Setting α) (k : Nat) : State α :=
  (advance setting)^[k] s

/-- Why no pivot follows in a state. -/
def Ends (s : State α) (setting : Setting α) : Ending → Prop
  | .optimal => s.entering? setting = none
  | .unbounded entering =>
    s.entering? setting = some entering ∧ s.leaving? setting entering = none
  | .stopped => ∃ entering, s.entering? setting = some entering
  | .noBasicColumn => False

variable {s : State α} {setting : Setting α} {entering leaving : Nat}

namespace Moves

variable {width : Nat}

theorem entering_lt (h : s.Moves setting entering leaving)
    (hw : s.position.tableau.HasWidth (width + 1)) : entering < width := by
  have hlt := (mem_enteringCandidates.mp (chooseEntering_mem h.enters)).1
  have hlen : s.position.tableau.objective.length = width + 1 := hw.width_eq
  omega

theorem entering_notMem_barred (h : s.Moves setting entering leaving) :
    entering ∉ setting.barred :=
  (mem_enteringCandidates.mp (chooseEntering_mem h.enters)).2.1

theorem cost_lt (h : s.Moves setting entering leaving) :
    s.position.tableau.objective.getD entering 0 < -setting.tolerance :=
  (mem_enteringCandidates.mp (chooseEntering_mem h.enters)).2.2

theorem leaving_lt (h : s.Moves setting entering leaving) :
    leaving < s.position.tableau.rows.length := by
  obtain ⟨ratio, hr, rfl⟩ := Tableau.chooseLeaving_mem h.leaves
  exact Tableau.row_lt_of_mem_ratios hr

end Moves

theorem advance_of_moves (h : s.Moves setting entering leaving) :
    s.advance setting = s.next (s.record setting entering leaving) := by
  rw [advance, h.enters]
  simp only [h.leaves]

theorem advance_eq_self_or (s : State α) (setting : Setting α) :
    s.advance setting = s ∨ ∃ entering leaving, s.Moves setting entering leaving := by
  cases he : s.entering? setting with
  | none => exact .inl (by rw [advance, he])
  | some entering =>
    cases hl : s.leaving? setting entering with
    | none =>
      left
      rw [advance, he]
      simp only [hl]
    | some leaving => exact .inr ⟨entering, leaving, he, hl⟩

@[simp] theorem after_zero (s : State α) (setting : Setting α) : s.after setting 0 = s := rfl

theorem after_succ (s : State α) (setting : Setting α) (k : Nat) :
    s.after setting (k + 1) = (s.advance setting).after setting k :=
  Function.iterate_succ_apply _ _ _

theorem after_succ' (s : State α) (setting : Setting α) (k : Nat) :
    s.after setting (k + 1) = (s.after setting k).advance setting :=
  Function.iterate_succ_apply' _ _ _

theorem after_add (s : State α) (setting : Setting α) (k l : Nat) :
    s.after setting (k + l) = (s.after setting k).after setting l := by
  rw [after, after, after, Nat.add_comm, Function.iterate_add_apply]

/-- What holds at the start and is kept by every pivot holds after any number of pivots. -/
theorem after_induction (invariant : State α → Prop) (start : invariant s)
    (keeps : ∀ s entering leaving, invariant s → s.Moves setting entering leaving →
      invariant (s.next (s.record setting entering leaving))) (k : Nat) :
    invariant (s.after setting k) := by
  induction k with
  | zero => exact start
  | succ k ih =>
    rw [after_succ']
    rcases advance_eq_self_or (s.after setting k) setting with hstay | ⟨e, l, hm⟩
    · rwa [hstay]
    · rw [advance_of_moves hm]
      exact keeps _ e l ih hm

/-- Pivots keep the number of basic columns. -/
theorem length_basis_after (s : State α) (setting : Setting α) (k : Nat) :
    (s.after setting k).position.basis.length = s.position.basis.length := by
  refine after_induction (fun t => t.position.basis.length = s.position.basis.length)
    rfl ?_ k
  intro t entering leaving ht _
  simpa [next, record, moved] using ht

end State

/-- The run with the given budget repeats the step from the given state. -/
structure Traces (setting : Setting α) (budget : Nat) (s : State α) (run : Run α) : Prop where
  le_budget : run.iterations ≤ budget
  moves : ∀ k < run.iterations, ∃ entering leaving,
    (s.after setting k).Moves setting entering leaving ∧
      run.pivots[k]? = some ((s.after setting k).record setting entering leaving)
  last_eq : run.last = (s.after setting run.iterations).position
  ends : (s.after setting run.iterations).Ends setting run.ending
  spent : run.ending = .stopped → run.iterations = budget

variable {setting : Setting α} {budget : Nat} {s : State α}

/-- A run without pivots repeats no step. -/
private theorem traces_nil {ending : Ending} (hends : s.Ends setting ending)
    (hspent : ending = .stopped → 0 = budget) :
    Traces setting budget s ⟨[], ending, s.position⟩ where
  le_budget := Nat.zero_le _
  moves := fun _ hk => absurd hk (Nat.not_lt_zero _)
  last_eq := rfl
  ends := hends
  spent := hspent

/-- One pivot before a run is one more step. -/
private theorem Traces.cons {entering leaving : Nat} {rest : Run α}
    (hm : s.Moves setting entering leaving)
    (h : Traces setting budget (s.next (s.record setting entering leaving)) rest) :
    Traces setting (budget + 1) s
      { rest with pivots := s.record setting entering leaving :: rest.pivots } := by
  have hafter : ∀ k, s.after setting (k + 1)
      = (s.next (s.record setting entering leaving)).after setting k := by
    intro k
    rw [State.after_succ, State.advance_of_moves hm]
  refine ⟨Nat.succ_le_succ h.le_budget, ?_, ?_, ?_, ?_⟩
  · intro k hk
    cases k with
    | zero => exact ⟨entering, leaving, hm, rfl⟩
    | succ k =>
      rw [hafter]
      exact h.moves k (Nat.lt_of_succ_lt_succ hk)
  · exact h.last_eq.trans (congrArg State.position (hafter _).symm)
  · change (s.after setting (rest.iterations + 1)).Ends setting rest.ending
    rw [hafter]
    exact h.ends
  · intro hstopped
    exact congrArg Nat.succ (h.spent hstopped)

/-- Follow a run from pivot to pivot, if every row has a basic column. -/
theorem run_induction {motive : Nat → State α → Run α → Prop}
    (nil : ∀ budget s ending, s.Ends setting ending → (ending = .stopped → 0 = budget) →
      motive budget s ⟨[], ending, s.position⟩)
    (cons : ∀ budget s entering leaving rest, s.Moves setting entering leaving →
      motive budget (s.next (s.record setting entering leaving)) rest →
      motive (budget + 1) s
        { rest with pivots := s.record setting entering leaving :: rest.pivots })
    (budget : Nat) (h : s.position.tableau.rows.length ≤ s.position.basis.length) :
    motive budget s (run setting budget s) := by
  induction budget generalizing s with
  | zero =>
    cases he : s.entering? setting with
    | none =>
      rw [run_of_entering_none he]
      exact nil 0 s .optimal he nofun
    | some entering =>
      rw [run_zero he]
      exact nil 0 s .stopped ⟨entering, he⟩ fun _ => rfl
  | succ budget ih =>
    cases he : s.entering? setting with
    | none =>
      rw [run_of_entering_none he]
      exact nil _ s .optimal he nofun
    | some entering =>
      cases hl : s.leaving? setting entering with
      | none =>
        rw [run_of_leaving_none he hl]
        exact nil _ s (.unbounded entering) ⟨he, hl⟩ nofun
      | some leaving =>
        rw [run_succ he hl (State.lacksColumn_eq_false h hl)]
        apply cons budget s entering leaving _ ⟨he, hl⟩
        apply ih
        simpa [State.next, State.record, State.moved] using h

/-- Every run repeats the step, if every row has a basic column. -/
theorem traces_run (h : s.position.tableau.rows.length ≤ s.position.basis.length) :
    Traces setting budget s (run setting budget s) :=
  run_induction (motive := fun budget s run => Traces setting budget s run)
    (fun _ _ _ hends hspent => traces_nil hends hspent)
    (fun _ _ _ _ _ hm hrest => hrest.cons hm) budget h

namespace Traces

variable {run : Run α}

theorem exists_moves (h : Traces setting budget s run) {k : Nat} (hk : k < run.iterations) :
    ∃ entering leaving, (s.after setting k).Moves setting entering leaving := by
  obtain ⟨entering, leaving, hm, -⟩ := h.moves k hk
  exact ⟨entering, leaving, hm⟩

/-- The start and the positions after the pivots of a run are those of its states. -/
theorem positions_eq (h : Traces setting budget s run) :
    s.position :: run.pivots.map (·.after)
      = (List.range (run.iterations + 1)).map fun k => (s.after setting k).position := by
  apply List.ext_getElem
  · simp [Run.iterations]
  · intro k hk _
    rw [List.getElem_map, List.getElem_range]
    cases k with
    | zero => rfl
    | succ k =>
      have hlt : k < run.iterations := by simpa [Run.iterations] using hk
      obtain ⟨entering, leaving, hm, hpivot⟩ := h.moves k hlt
      have hget := List.getElem_of_getElem? hpivot |>.2
      rw [State.after_succ', State.advance_of_moves hm]
      simp [hget, State.next]

/-- A run whose budget is not spent ends where no column may enter or no row may leave. -/
theorem ending_eq (h : Traces setting budget s run) (hlt : run.iterations < budget) :
    run.ending = .optimal ∨ ∃ entering, run.ending = .unbounded entering := by
  have hends := h.ends
  cases hending : run.ending with
  | optimal => exact .inl rfl
  | unbounded entering => exact .inr ⟨entering, rfl⟩
  | stopped => exact absurd (h.spent hending) (Nat.ne_of_lt hlt)
  | noBasicColumn =>
    rw [hending] at hends
    exact hends.elim

end Traces

end Pivoting

section Options

variable {α : Type} [Scalar α]

/-- What stays fixed during a run under the given options. -/
def Options.setting (options : Options α) (barred : List Nat) : Pivoting.Setting α :=
  { tolerance := options.tolerance, cycleGuard := options.cycleGuard, barred }

/-- The state from which a run under the given options starts. -/
def Position.state (p : Position α) (options : Options α) : Pivoting.State α :=
  { position := p, rule := options.rule, seen := [p.basis] }

/-- The run from a position, if it goes on for long enough, comes to the other one. -/
def Position.Visits (p : Position α) (options : Options α) (barred : List Nat)
    (q : Position α) : Prop :=
  ∃ k, ((p.state options).after (options.setting barred) k).position = q

theorem Position.traces (p : Position α) (h : p.tableau.rows.length ≤ p.basis.length)
    (options : Options α) (barred : List Nat) (budget : Nat) :
    Pivoting.Traces (options.setting barred) budget (p.state options)
      (p.run options barred budget) :=
  Pivoting.traces_run h

end Options

end SimplexMethod
