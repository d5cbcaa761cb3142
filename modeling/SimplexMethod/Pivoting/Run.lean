import SimplexMethod.Pivoting.Choice

/-!
# Runs of pivots

A run pivots until no column may enter, until its budget is spent, or until the entering column
has no row to leave, in this order of tests. It breaks off where a row without a basic column is
ranked or would leave, which takes a basis with fewer columns than there are rows. Every pivot is
recorded. With the cycle guard on, the first basis that occurs for a second time switches the run
to Bland's rule for good.
-/

namespace SimplexMethod

/-- Why a run ended. -/
inductive Ending where
  | optimal
  | unbounded (entering : Nat)
  | stopped
  | noBasicColumn
deriving DecidableEq

/-- A recorded pivot: the entering column, the leaving row, the column that was basic in it, the
pivot element, the position afterwards, and whether its basis switched the run to Bland's rule. -/
structure Pivot (α : Type) where
  entering : Nat
  leaving : Nat
  basic : Nat
  element : α
  after : Position α
  switched : Bool
deriving DecidableEq

/-- The pivots of a run in order, why it ended and where. -/
structure Run (α : Type) where
  pivots : List (Pivot α)
  ending : Ending
  last : Position α
deriving DecidableEq

/-- The number of pivots. -/
def Run.iterations {α : Type} (run : Run α) : Nat :=
  run.pivots.length

namespace Pivoting

/-- What stays fixed during a run. -/
structure Setting (α : Type) where
  tolerance : α
  cycleGuard : Bool
  barred : List Nat

/-- What a run changes: the position, the rule in force, and the bases met so far. -/
structure State (α : Type) where
  position : Position α
  rule : PivotRule
  seen : List (List Nat)

variable {α : Type} [Scalar α]

namespace State

/-- The column that enters next. -/
def entering? (s : State α) (setting : Setting α) : Option Nat :=
  chooseEntering s.position.tableau.objective setting.barred s.rule setting.tolerance

/-- The row that leaves for the column. -/
def leaving? (s : State α) (setting : Setting α) (entering : Nat) : Option Nat :=
  s.position.tableau.chooseLeaving entering s.position.basis s.rule setting.tolerance

/-- The choice of the row ranks a row that has no basic column, or takes one. -/
def lacksColumn (s : State α) (setting : Setting α) (entering leaving : Nat) : Bool :=
  s.position.tableau.ranksBeyond entering s.position.basis s.rule setting.tolerance
    || s.position.basis.length ≤ leaving

/-- Pivot, and put the entering column into the basis. -/
def moved (s : State α) (entering leaving : Nat) : Position α :=
  ⟨s.position.tableau.pivot leaving entering, s.position.basis.set leaving entering⟩

/-- The basis after a pivot has been met before while the guard watches. -/
def switches (s : State α) (setting : Setting α) (after : Position α) : Bool :=
  setting.cycleGuard && s.rule = .dantzig && after.basis ∈ s.seen

/-- The record of a pivot. -/
def record (s : State α) (setting : Setting α) (entering leaving : Nat) : Pivot α where
  entering
  leaving
  basic := s.position.basis.getD leaving 0
  element := s.position.tableau.entry leaving entering
  after := s.moved entering leaving
  switched := s.switches setting (s.moved entering leaving)

/-- The state after a recorded pivot. -/
def next (s : State α) (pivot : Pivot α) : State α where
  position := pivot.after
  rule := if pivot.switched then .bland else s.rule
  seen := pivot.after.basis :: s.seen

theorem lacksColumn_eq_false {s : State α} {setting : Setting α} {entering leaving : Nat}
    (h : s.position.tableau.rows.length ≤ s.position.basis.length)
    (hl : s.leaving? setting entering = some leaving) :
    s.lacksColumn setting entering leaving = false := by
  obtain ⟨ratio, hr, rfl⟩ := Tableau.chooseLeaving_mem hl
  have hrow := Tableau.row_lt_of_mem_ratios hr
  simp [lacksColumn, Tableau.ranksBeyond_eq_false h, Nat.lt_of_lt_of_le hrow h]

end State

/-- Pivot at most `budget` times. -/
def run (setting : Setting α) : Nat → State α → Run α
  | budget, s =>
    match s.entering? setting with
    | none => ⟨[], .optimal, s.position⟩
    | some entering =>
      match budget with
      | 0 => ⟨[], .stopped, s.position⟩
      | budget + 1 =>
        match s.leaving? setting entering with
        | none => ⟨[], .unbounded entering, s.position⟩
        | some leaving =>
          if s.lacksColumn setting entering leaving then ⟨[], .noBasicColumn, s.position⟩
          else
            let pivot := s.record setting entering leaving
            let rest := run setting budget (s.next pivot)
            { rest with pivots := pivot :: rest.pivots }

theorem run_of_entering_none {setting : Setting α} {s : State α}
    (h : s.entering? setting = none) (budget : Nat) :
    run setting budget s = ⟨[], .optimal, s.position⟩ := by
  rw [run, h]

theorem run_zero {setting : Setting α} {s : State α} {entering : Nat}
    (h : s.entering? setting = some entering) :
    run setting 0 s = ⟨[], .stopped, s.position⟩ := by
  rw [run, h]

theorem run_of_leaving_none {setting : Setting α} {s : State α} {entering : Nat}
    (h : s.entering? setting = some entering) (hl : s.leaving? setting entering = none)
    (budget : Nat) :
    run setting (budget + 1) s = ⟨[], .unbounded entering, s.position⟩ := by
  rw [run, h]
  simp only [hl]

theorem run_of_lacksColumn {setting : Setting α} {s : State α} {entering leaving : Nat}
    (h : s.entering? setting = some entering)
    (hl : s.leaving? setting entering = some leaving)
    (hc : s.lacksColumn setting entering leaving = true) (budget : Nat) :
    run setting (budget + 1) s = ⟨[], .noBasicColumn, s.position⟩ := by
  rw [run, h]
  simp only [hl, hc, if_true]

theorem run_succ {setting : Setting α} {s : State α} {entering leaving : Nat}
    (h : s.entering? setting = some entering)
    (hl : s.leaving? setting entering = some leaving)
    (hc : s.lacksColumn setting entering leaving = false) (budget : Nat) :
    run setting (budget + 1) s =
      { run setting budget (s.next (s.record setting entering leaving)) with
        pivots := s.record setting entering leaving
          :: (run setting budget (s.next (s.record setting entering leaving))).pivots } := by
  rw [run, h]
  simp [hl, hc]

/-- A run does not break off if every row has a basic column: pivots keep the numbers of both. -/
theorem ending_run_ne_noBasicColumn {setting : Setting α} {budget : Nat} {s : State α}
    (h : s.position.tableau.rows.length ≤ s.position.basis.length) :
    (run setting budget s).ending ≠ .noBasicColumn := by
  induction budget generalizing s with
  | zero =>
    cases he : s.entering? setting with
    | none => simp [run_of_entering_none he]
    | some entering => simp [run_zero he]
  | succ budget ih =>
    cases he : s.entering? setting with
    | none => simp [run_of_entering_none he]
    | some entering =>
      cases hl : s.leaving? setting entering with
      | none => simp [run_of_leaving_none he hl]
      | some leaving =>
        rw [run_succ he hl (State.lacksColumn_eq_false h hl)]
        refine ih ?_
        simpa [State.next, State.record, State.moved, Tableau.pivot, Tableau.mapLines] using h

end Pivoting

variable {α : Type} [Scalar α]

/-- The run from a position under the given options, which never lets a barred column enter. -/
def Position.run (p : Position α) (options : Options α) (barred : List Nat) (budget : Nat) :
    Run α :=
  Pivoting.run { tolerance := options.tolerance, cycleGuard := options.cycleGuard, barred } budget
    { position := p, rule := options.rule, seen := [p.basis] }

end SimplexMethod
