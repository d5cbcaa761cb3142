import SimplexMethod.History
import SimplexMethod.Proofs.Tableau.Frame

/-!
# The snapshots of a run

The snapshots of a run lead from the position it starts from to its last one, pivot by pivot: each
is recorded in the position before it, which is that of the snapshot before or the start. So what
one step of the trace does holds of every snapshot together with the position before it. Nothing
here depends on the arithmetic.
-/

namespace SimplexMethod

variable {α : Type}

/-- Each snapshot stands in the given relation to the position before it. -/
inductive Position.Leads (step : Position α → Snapshot α → Prop) :
    Position α → List (Snapshot α) → Prop where
  | nil (start : Position α) : Leads step start []
  | cons {start : Position α} {snapshot : Snapshot α} {later : List (Snapshot α)}
      (head : step start snapshot) (tail : Leads step snapshot.position later) :
      Leads step start (snapshot :: later)

namespace Position.Leads

variable {step other : Position α → Snapshot α → Prop} {start : Position α}
  {snapshots : List (Snapshot α)}

theorem mono (h : start.Leads step snapshots)
    (himp : ∀ before snapshot, step before snapshot → other before snapshot) :
    start.Leads other snapshots := by
  induction h with
  | nil start => exact .nil start
  | cons head _ ih => exact .cons (himp _ _ head) ih

theorem exists_of_mem (h : start.Leads step snapshots) {snapshot : Snapshot α}
    (hmem : snapshot ∈ snapshots) : ∃ before, step before snapshot := by
  induction h with
  | nil => exact absurd hmem List.not_mem_nil
  | @cons start head later hhead _ ih =>
    rcases List.mem_cons.mp hmem with rfl | hlater
    · exact ⟨start, hhead⟩
    · exact ih hlater

end Position.Leads

namespace Run

theorem snapshots_cons (pivot : Pivot α) (rest : Run α) (phase : Int) (earlier : Nat) :
    ({ rest with pivots := pivot :: rest.pivots } : Run α).snapshots phase earlier
      = { phase
          iteration := earlier + 1
          entering := pivot.entering
          leaving := pivot.leaving
          position := pivot.after } :: rest.snapshots phase (earlier + 1) := by
  simp [snapshots, List.mapIdx_cons, Nat.add_assoc, Nat.add_comm 1]

theorem phase_of_mem_snapshots {run : Run α} {phase : Int} {earlier : Nat} {snapshot : Snapshot α}
    (h : snapshot ∈ run.snapshots phase earlier) : snapshot.phase = phase := by
  obtain ⟨index, hindex, rfl⟩ := List.mem_mapIdx.mp h
  rfl

end Run

variable [Scalar α]

namespace Pivoting.State

/-- The trace from the state makes the pivot of the snapshot in the given position. -/
def Records (s : State α) (setting : Setting α) (before : Position α) (snapshot : Snapshot α) :
    Prop :=
  ∃ k, (s.after setting k).position = before ∧
    (s.after setting k).Moves setting snapshot.entering snapshot.leaving ∧
    (s.after setting k).moved snapshot.entering snapshot.leaving = snapshot.position

variable {s : State α} {setting : Setting α} {before : Position α} {snapshot : Snapshot α}

/-- What is recorded after a pivot is recorded by the trace with that pivot. -/
theorem Records.of_next {entering leaving : Nat} (hm : s.Moves setting entering leaving)
    (h : (s.next (s.record setting entering leaving)).Records setting before snapshot) :
    s.Records setting before snapshot := by
  obtain ⟨k, hk⟩ := h
  refine ⟨k + 1, ?_⟩
  rwa [after_succ, advance_of_moves hm]

/-- A snapshot holds a position of the trace. -/
theorem Records.exists_after (h : s.Records setting before snapshot) :
    ∃ k, (s.after setting k).position = snapshot.position := by
  obtain ⟨k, -, hm, hmoved⟩ := h
  refine ⟨k + 1, ?_⟩
  rw [after_succ', advance_of_moves hm]
  exact hmoved

/-- The snapshots of a run lead from its start along the trace. -/
theorem leads_run (h : s.position.tableau.rows.length ≤ s.position.basis.length) (budget : Nat)
    (phase : Int) (earlier : Nat) :
    s.position.Leads (s.Records setting) ((run setting budget s).snapshots phase earlier) := by
  refine run_induction
    (motive := fun _ s run => ∀ earlier,
      s.position.Leads (s.Records setting) (run.snapshots phase earlier)) ?_ ?_ budget h earlier
  · intro _ s _ _ _ _
    exact .nil s.position
  · intro _ s entering leaving rest hm hrest earlier
    rw [Run.snapshots_cons]
    exact .cons ⟨0, rfl, hm, rfl⟩ ((hrest (earlier + 1)).mono fun _ _ => Records.of_next hm)

end Pivoting.State

/-- The snapshots of a run from a framed position lead from it along the trace. -/
theorem Position.Framed.leads_records {p : Position α} {width : Nat} (h : p.Framed width)
    (options : Options α) (barred : List Nat) (budget : Nat) (phase : Int) (earlier : Nat) :
    p.Leads ((p.state options).Records (options.setting barred))
      ((p.run options barred budget).snapshots phase earlier) :=
  Pivoting.State.leads_run (s := p.state options) (Nat.le_of_eq h.length_basis.symm) budget phase
    earlier

end SimplexMethod
