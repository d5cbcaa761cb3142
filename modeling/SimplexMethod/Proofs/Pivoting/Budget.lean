import SimplexMethod.History

/-!
# Runs under different budgets

The budget of a run decides only where the run is cut off. Under a larger budget a run that was not
stopped is the same run, and a run that was stopped has spent its budget and goes on from there.
Nothing here depends on the arithmetic.
-/

namespace SimplexMethod

variable {α : Type}

/-- The first run is the second one, cut off after the given number of pivots. -/
structure Run.CutsOff (budget : Nat) (small large : Run α) : Prop where
  pivots_le : small.pivots <+: large.pivots
  iterations_le : small.iterations ≤ budget
  spent : small.ending = .stopped → small.iterations = budget
  eq_of_ne_stopped : small.ending ≠ .stopped → large = small

namespace Run.CutsOff

variable {budget : Nat} {small large : Run α}

/-- A run without pivots that its budget did not stop. -/
theorem refl_nil {ending : Ending} (last : Position α) (hend : ending ≠ .stopped) :
    CutsOff budget ⟨[], ending, last⟩ ⟨[], ending, last⟩ where
  pivots_le := List.prefix_refl _
  iterations_le := Nat.zero_le _
  spent := fun hstopped => absurd hstopped hend
  eq_of_ne_stopped := fun _ => rfl

/-- A run without any budget. -/
theorem zero (last : Position α) (large : Run α) : CutsOff 0 ⟨[], .stopped, last⟩ large where
  pivots_le := List.nil_prefix
  iterations_le := Nat.le_refl _
  spent := fun _ => rfl
  eq_of_ne_stopped := fun hend => absurd rfl hend

/-- One pivot before both runs. -/
theorem cons (h : CutsOff budget small large) (pivot : Pivot α) :
    CutsOff (budget + 1) { small with pivots := pivot :: small.pivots }
      { large with pivots := pivot :: large.pivots } where
  pivots_le := (List.prefix_cons_inj pivot).mpr h.pivots_le
  iterations_le := Nat.succ_le_succ h.iterations_le
  spent := fun hstopped => congrArg Nat.succ (h.spent hstopped)
  eq_of_ne_stopped := fun hend => by rw [h.eq_of_ne_stopped hend]

/-- What was recorded before a run was cut off comes first in the record of the whole run. -/
theorem snapshots_le (h : CutsOff budget small large) (phase : Int) (earlier : Nat) :
    small.snapshots phase earlier <+: large.snapshots phase earlier := by
  obtain ⟨rest, hrest⟩ := h.pivots_le
  rw [snapshots, snapshots, ← hrest, List.mapIdx_append]
  exact List.prefix_append _ _

end Run.CutsOff

variable [Scalar α]

/-- A run under a smaller budget is the one under a larger budget, cut off. -/
theorem Pivoting.cutsOff_run {setting : Setting α} {s : State α} {small large : Nat}
    (hle : small ≤ large) : (run setting small s).CutsOff small (run setting large s) := by
  induction small generalizing large s with
  | zero =>
    cases he : s.entering? setting with
    | none =>
      rw [run_of_entering_none he, run_of_entering_none he]
      exact .refl_nil _ nofun
    | some entering =>
      rw [run_zero he]
      exact .zero _ _
  | succ small ih =>
    obtain ⟨large, rfl⟩ := Nat.exists_eq_add_of_le' (Nat.lt_of_lt_of_le (Nat.succ_pos small) hle)
    cases he : s.entering? setting with
    | none =>
      rw [run_of_entering_none he, run_of_entering_none he]
      exact .refl_nil _ nofun
    | some entering =>
      cases hl : s.leaving? setting entering with
      | none =>
        rw [run_of_leaving_none he hl, run_of_leaving_none he hl]
        exact .refl_nil _ nofun
      | some leaving =>
        cases hc : s.lacksColumn setting entering leaving with
        | true =>
          rw [run_of_lacksColumn he hl hc, run_of_lacksColumn he hl hc]
          exact .refl_nil _ nofun
        | false =>
          rw [run_succ he hl hc, run_succ he hl hc]
          exact (ih (Nat.le_of_succ_le_succ hle)).cons _

/-- A run makes no more pivots than its budget allows. -/
theorem Position.iterations_run_le (p : Position α) (options : Options α) (barred : List Nat)
    (budget : Nat) : (p.run options barred budget).iterations ≤ budget :=
  (Pivoting.cutsOff_run (Nat.le_refl budget)).iterations_le

end SimplexMethod
