import SimplexMethod.Proofs.Phases.Ownership
import SimplexMethod.Proofs.Solve.Routes
import SimplexMethod.Proofs.Solve.Verdicts

/-!
# Redundant rows

The note on dropped rows lists lines of the last tableau of the first phase. What is redundant are
the rows of the problem that the artificial columns in those lines were made for: without them the
problem has the same feasible points. The two lists are the same unless an artificial column came
back into the basis, in the line of another row.
-/

namespace SimplexMethod

section Note

variable {α : Type}

/-- What the first phase leaves, if it leaves something to go on with. -/
def Entry.reduced? : Entry α → Option (Reduced α)
  | .feasible reduced => some reduced
  | _ => none

/-- The rows that the artificial columns were made for which the first phase left in the given
lines. -/
def FirstPhase.owners (first : FirstPhase α) (lines : List Nat) : List Nat :=
  lines.map fun line =>
    first.prepared.owner ((first.run.elim [] fun run => run.last.basis).getD line 0)

/-- The problem without the rows with the given numbers. -/
def Problem.without (problem : Problem α) (indices : List Nat) : Problem α :=
  { problem with
    constraints := (problem.constraints.zipIdx.filter fun place => place.2 ∉ indices).map (·.1) }

theorem Problem.mem_without {problem : Problem α} {indices : List Nat} {row : Constraint α} :
    row ∈ (problem.without indices).constraints ↔
      ∃ i, ∃ hi : i < problem.constraints.length, i ∉ indices ∧ problem.constraints[i] = row := by
  rw [without, List.mem_map]
  constructor
  · rintro ⟨⟨row, i⟩, hplace, rfl⟩
    obtain ⟨hmem, hnot⟩ := List.mem_filter.mp hplace
    obtain ⟨hi, hrow⟩ := mem_zipIdx_iff.mp hmem
    exact ⟨i, hi, by simpa using hnot, hrow⟩
  · rintro ⟨i, hi, hnot, rfl⟩
    have hmem : (problem.constraints[i], i) ∈ problem.constraints.zipIdx :=
      mem_zipIdx_iff.mpr ⟨hi, rfl⟩
    exact ⟨_, List.mem_filter.mpr ⟨hmem, by simpa using hnot⟩, rfl⟩

variable [Scalar α] {problem : Problem α} {options : Options α} {outcome : Outcome α}

/-- An optimal verdict names the lines that the removal dropped. -/
theorem report_solveTwoPhase (h : solveTwoPhase problem options = .ok outcome)
    {first : FirstPhase α} {reduced : Reduced α} {run : Run α}
    (hfirst : outcome.first = some first) (hentry : first.entry = .feasible reduced)
    (hsecond : outcome.second = some run) (hend : run.ending = .optimal) :
    outcome.report
      = (run.last.report problem.dimension problem.objective.sense
          (first.iterations + run.iterations) problem.idleColumns options.tolerance).withNote
          (droppedNote reduced.dropped) := by
  obtain ⟨other, -, h⟩ := exists_of_bind_eq_ok h
  cases hother : other.entry with
  | stopped =>
    rw [hother] at h
    rw [← Except.ok.inj h] at hsecond
    exact absurd hsecond nofun
  | infeasible sum =>
    rw [hother] at h
    rw [← Except.ok.inj h] at hsecond
    exact absurd hsecond nofun
  | unbounded =>
    rw [hother] at h
    rw [← Except.ok.inj h] at hsecond
    exact absurd hsecond nofun
  | feasible found =>
    rw [hother] at h
    obtain ⟨report, hreport, h⟩ := exists_of_bind_eq_ok h
    rw [← Except.ok.inj h] at hfirst hsecond ⊢
    obtain rfl := Option.some.inj hfirst
    obtain rfl := Entry.feasible.inj (hother.symm.trans hentry)
    obtain rfl := Option.some.inj hsecond
    simp only [hend, if_true]
    unfold secondReport at hreport
    rw [hend] at hreport
    obtain ⟨-, -, hreport⟩ := exists_of_bind_eq_ok hreport
    rw [← Except.ok.inj hreport]

end Note

namespace Problem

variable {problem : Problem ℚ} {options : Options ℚ}

/-- The point with the slack of the rows that are not listed. -/
def withSlackOutside (problem : Problem ℚ) (indices : List ℕ) (x : List ℚ) : ℕ → ℚ := fun j =>
  if problem.dimension ≤ j ∧ j - problem.dimension ∈ indices then 0 else problem.withSlack x j

theorem gap_line_withSlackOutside (h : problem.fault? = none) (indices : List ℕ) (x : List ℚ)
    {i : ℕ} (hi : i < problem.constraints.length) :
    gap (problem.start.tableau.line i) (problem.withSlackOutside indices x)
      = dot problem.constraints[i].coefficients x
        + problem.constraints[i].relation.slack
          * (if i ∈ indices then 0 else problem.constraints[i].room x)
        - problem.constraints[i].rhs := by
  have hlength := length_coefficients h (List.getElem_mem hi)
  have hform : linearForm problem.constraints[i].coefficients (problem.withSlackOutside indices x)
      = dot problem.constraints[i].coefficients x := by
    rw [← linearForm_withSlack hlength x]
    apply Finset.sum_congr rfl
    intro j hj
    have hlt : j < problem.dimension := hlength ▸ Finset.mem_range.mp hj
    rw [withSlackOutside, if_neg (by omega)]
  have hslack : problem.withSlackOutside indices x (problem.dimension + i)
      = if i ∈ indices then 0 else problem.constraints[i].room x := by
    simp [withSlackOutside, withSlack, hi]
  rw [gap_line_start h hi, hform, hslack]

/-- A point that satisfies the other rows satisfies the owners of the dropped lines. -/
theorem feasible_of_without_owners (h : problem.fault? = none) (htol : 0 ≤ options.tolerance)
    (hlacks : problem.start.lackingRows options.tolerance ≠ [])
    (hd : problem.Discerned options.tolerance)
    (hsum : ¬ problem.start.SumLeft options problem.idleColumns) {x : List ℚ}
    (hx : (problem.without (problem.owners options)).Feasible x) : problem.Feasible x := by
  have hothers : ∀ i, ∀ hi : i < problem.constraints.length, i ∉ problem.owners options →
      problem.constraints[i].Holds x :=
    fun i hi hmem => hx.holds _ (mem_without.mpr ⟨i, hi, hmem, rfl⟩)
  have hgap : ∀ i < problem.constraints.length, i ∉ problem.owners options →
      gap (problem.start.tableau.line i)
        (problem.withSlackOutside (problem.owners options) x) = 0 := by
    intro i hi hmem
    rw [gap_line_withSlackOutside h _ x hi, if_neg hmem,
      Constraint.add_slack_mul_room (hothers i hi hmem), sub_self]
  refine ⟨hx.length_eq, hx.nonneg, ?_⟩
  intro row hr
  obtain ⟨i, hi, rfl⟩ := List.mem_iff_getElem.mp hr
  by_cases hmem : i ∈ problem.owners options
  · have hzero := gap_eq_zero_of_owners h htol hlacks hd hsum hgap hmem
    rw [gap_line_withSlackOutside h _ x hi, if_pos hmem] at hzero
    exact Constraint.holds_of_add_slack le_rfl (sub_eq_zero.mp hzero)
  · exact hothers i hi hmem

theorem Feasible.without {x : List ℚ} (h : problem.Feasible x) (indices : List ℕ) :
    (problem.without indices).Feasible x where
  length_eq := h.length_eq
  nonneg := h.nonneg
  holds := by
    intro row hr
    obtain ⟨i, hi, -, rfl⟩ := mem_without.mp hr
    exact h.holds _ (List.getElem_mem hi)

/-- The rows with the given numbers may be deleted together. -/
structure Redundant (problem : Problem ℚ) (indices : List ℕ) : Prop where
  nodup : indices.Nodup
  lt_length : ∀ i ∈ indices, i < problem.constraints.length
  feasible_iff : ∀ x, (problem.without indices).Feasible x ↔ problem.Feasible x

theorem redundant_nil (problem : Problem ℚ) : problem.Redundant [] where
  nodup := List.nodup_nil
  lt_length := fun i hi => absurd hi List.not_mem_nil
  feasible_iff := by
    intro x
    refine ⟨fun hx => ⟨hx.length_eq, hx.nonneg, ?_⟩, fun hx => hx.without []⟩
    intro row hr
    obtain ⟨i, hi, rfl⟩ := List.mem_iff_getElem.mp hr
    exact hx.holds _ (mem_without.mpr ⟨i, hi, List.not_mem_nil, rfl⟩)

section Search

variable {first : FirstPhase ℚ} (h : problem.fault? = none)
  (hs : problem.start.Search options problem.idleColumns
    (problem.dimension + problem.constraints.length) first)

include h hs

/-- The owners of the lines that the first phase dropped, as they are computed. -/
theorem owners_firstReduced (hlacks : problem.start.lackingRows options.tolerance ≠ []) :
    first.owners (problem.start.firstReduced options problem.idleColumns
        (problem.dimension + problem.constraints.length)).dropped = problem.owners options := by
  rw [FirstPhase.owners, hs.prepared_eq, hs.run_eq hlacks, Option.elim_some,
    firstReduced_eq h hlacks, owners]

variable {reduced : Reduced ℚ} (hentry : first.entry = .feasible reduced)

include hentry

/-- The owners of the lines that the first phase dropped are redundant. -/
theorem redundant_owners (htol : 0 ≤ options.tolerance) (hd : problem.Discerned options.tolerance) :
    problem.Redundant (first.owners reduced.dropped) := by
  rcases hs.of_feasible hentry with ⟨-, rfl⟩ | ⟨hlacks, -, hsum, rfl⟩
  · exact problem.redundant_nil
  · rw [owners_firstReduced h hs hlacks]
    exact
      { nodup := nodup_owners h htol hlacks
        lt_length := fun i hi => lt_of_mem_lackingRows (mem_lackingRows_of_mem_owners h hi)
        feasible_iff := fun x =>
          ⟨feasible_of_without_owners h htol hlacks hd hsum, fun hx => hx.without _⟩ }

/-- The dropped lines are their own owners if no artificial column enters the basis. -/
theorem owners_eq_self (hentering : ∀ run, first.run = some run → ∀ pivot ∈ run.pivots,
      pivot.entering ∉ first.prepared.artificial) :
    first.owners reduced.dropped = reduced.dropped := by
  rcases hs.of_feasible hentry with ⟨-, rfl⟩ | ⟨hlacks, -, -, rfl⟩
  · rfl
  · have hpivots := hentering _ (hs.run_eq hlacks)
    rw [hs.prepared_eq, Position.prepare_of_ne_nil (hasWidth_start h) hlacks] at hpivots
    rw [owners_firstReduced h hs hlacks, owners_eq_dropped h hlacks hpivots,
      firstReduced_eq h hlacks]

end Search

end Problem

/-- Without a tolerance, the rows that the artificial columns in the dropped lines were made for are
redundant: as many as there are dropped lines, they may be deleted together. They are the lines the
message names if no artificial column entered the basis again. -/
theorem exists_redundant {problem : Problem ℚ} {options : Options ℚ} (h : problem.fault? = none)
    (hrows : problem.constraints ≠ []) (htwo : options.twoPhase = true)
    (htol : options.tolerance = 0) :
    ∃ outcome, solve problem options = .ok (.solved outcome) ∧
      (outcome.report.status = .optimal ∨ outcome.report.status = .optimalWithAlternatives →
        ∃ first reduced run, outcome.first = some first ∧ first.entry = .feasible reduced ∧
          outcome.second = some run ∧
          outcome.report
            = (run.last.report problem.dimension problem.objective.sense
                (first.iterations + run.iterations) problem.idleColumns
                options.tolerance).withNote (droppedNote reduced.dropped) ∧
          (first.owners reduced.dropped).length = reduced.dropped.length ∧
          problem.Redundant (first.owners reduced.dropped) ∧
          ((∀ run, first.run = some run → ∀ pivot ∈ run.pivots,
              pivot.entering ∉ first.prepared.artificial) →
            first.owners reduced.dropped = reduced.dropped)) := by
  obtain ⟨outcome, houtcome, hcourse⟩ := exists_solveTwoPhase h options
  refine ⟨outcome, solve_eq_of_twoPhase h hrows htwo houtcome, ?_⟩
  intro hstatus
  obtain ⟨first, reduced, run, hfirst, hsearch, hentry, -, hsecond, hend, -⟩ :=
    hcourse.phases_of_optimal hstatus
  exact ⟨first, reduced, run, hfirst, hentry, hsecond,
    report_solveTwoPhase houtcome hfirst hentry hsecond hend, List.length_map _,
    Problem.redundant_owners h hsearch hentry htol.ge (.of_eq_zero htol problem),
    Problem.owners_eq_self h hsearch hentry⟩

/-- Minimise `y` where `x = 1` twice, `2x + y ≤ 3` and `2y = 2`. -/
def Problem.crossed : Problem ℚ where
  objective := ⟨[0, 1], .minimise⟩
  constraints :=
    [{ coefficients := [1, 0], rhs := 1, relation := .equal },
      { coefficients := [1, 0], rhs := 1, relation := .equal },
      { coefficients := [2, 1], rhs := 3, relation := .atMost },
      { coefficients := [0, 2], rhs := 2, relation := .equal }]

/-- The artificial column of the first row comes back into the basis in the last line, so that line
is dropped where the first row is redundant. -/
theorem redundant_crossed :
    ∃ outcome first reduced, solve .crossed { tolerance := 0 } = .ok (.solved outcome) ∧
      outcome.report.status = .optimal ∧ outcome.first = some first ∧
      first.entry = .feasible reduced ∧ reduced.dropped = [3] ∧
      first.owners reduced.dropped = [0] ∧ Problem.crossed.Redundant [0] := by
  obtain ⟨outcome, hsolve, hredundant⟩ := @exists_redundant .crossed { tolerance := 0 }
    (by decide +kernel) (by simp [Problem.crossed]) rfl rfl
  have hstatus : outcome.report.status = .optimal := status_of_solve hsolve (by decide +kernel)
  obtain ⟨first, reduced, run, hfirst, hentry, -, -, -, howned, -⟩ := hredundant (.inl hstatus)
  have hread := eq_of_solve hsolve (fun outcome => outcome.first.bind fun first =>
    first.entry.reduced?.map fun reduced => (reduced.dropped, first.owners reduced.dropped))
    (show _ = some (some ([3], [0])) by decide +kernel)
  rw [hfirst, Option.bind_some, hentry] at hread
  obtain ⟨hdropped, howners⟩ := Prod.mk.inj (Option.some.inj hread)
  exact ⟨outcome, first, reduced, hsolve, hstatus, hfirst, hentry, hdropped, howners,
    howners ▸ howned⟩

/-- The message names the last row, but it is not redundant. -/
theorem not_redundant_crossed :
    ∃ outcome, solve .crossed { tolerance := 0 } = .ok (.solved outcome) ∧
      outcome.report.status = .optimal ∧
      outcome.report.message = "Removed redundant constraint rows [3]." ∧
      (Problem.crossed.without [3]).Feasible [1, 0] ∧ ¬ Problem.crossed.Feasible [1, 0] := by
  obtain ⟨outcome, hsolve, -⟩ := @exists_solve _ _ .crossed { tolerance := 0 }
    (by decide +kernel) (by simp [Problem.crossed]) rfl
  refine ⟨outcome, hsolve, status_of_solve hsolve (by decide +kernel), ?_, by decide +kernel,
    by decide +kernel⟩
  exact eq_of_solve hsolve (·.report.message) (by decide +kernel)

end SimplexMethod
