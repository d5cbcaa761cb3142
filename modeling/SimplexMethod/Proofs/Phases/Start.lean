import SimplexMethod.Proofs.Tableau.System
import SimplexMethod.Proofs.Problem.Acceptance
import SimplexMethod.Problem.Feasible
import SimplexMethod.Tableau.Initial

/-!
# The tableau of a problem states the problem

With its slack a feasible point solves the equations of the start tableau, and a non-negative
solution without its slack is feasible. The objective row holds the costs of the problem, which
are negated for a maximisation.
-/

namespace SimplexMethod

namespace Problem

section Shape

variable {α : Type} {problem : Problem α}

/-- A column is idle if it is the slack column of an equality row. -/
theorem mem_idleColumns {j : Nat} :
    j ∈ problem.idleColumns ↔ ∃ i, ∃ hi : i < problem.constraints.length,
      problem.constraints[i].relation = .equal ∧ j = problem.dimension + i := by
  rw [idleColumns, List.mem_filterMap]
  constructor
  · rintro ⟨⟨row, i⟩, hmem, hsome⟩
    obtain ⟨hi, rfl⟩ := mem_zipIdx_iff.mp hmem
    dsimp only at hsome
    split at hsome
    · rename_i heq
      exact ⟨i, hi, heq, (Option.some.inj hsome).symm⟩
    · simp at hsome
  · rintro ⟨i, hi, heq, rfl⟩
    exact ⟨(problem.constraints[i], i), mem_zipIdx_iff.mpr ⟨hi, rfl⟩, if_pos heq⟩

theorem lt_of_mem_idleColumns {j : Nat} (hj : j ∈ problem.idleColumns) :
    j < problem.dimension + problem.constraints.length := by
  obtain ⟨i, hi, -, rfl⟩ := mem_idleColumns.mp hj
  exact Nat.add_lt_add_left hi _

variable [Scalar α]

theorem tableau_eq_ok (h : problem.fault? = none) : problem.tableau = .ok problem.start := by
  rw [tableau, validate_eq_ok h]
  rfl

theorem dimension_pos (h : problem.fault? = none) : 0 < problem.dimension :=
  (fault?_eq_none_iff.mp h).1

/-- The rows of a problem without fault have one coefficient for each variable. -/
theorem length_coefficients (h : problem.fault? = none) {row : Constraint α}
    (hr : row ∈ problem.constraints) : row.coefficients.length = problem.dimension :=
  ((fault?_eq_none_iff.mp h).2.2 row hr).length_eq

theorem length_costs (objective : Objective α) :
    objective.costs.length = objective.coefficients.length := by
  cases hs : objective.sense <;> simp [Objective.costs, hs]

theorem hasWidth_start (h : problem.fault? = none) :
    problem.start.tableau.HasWidth (problem.dimension + problem.constraints.length + 1) := by
  intro line hl
  rcases List.mem_append.mp hl with hrow | hobj
  · obtain ⟨i, hi, rfl⟩ := List.mem_mapIdx.mp hrow
    simp [Constraint.line, length_coefficients h (List.getElem_mem hi), Nat.add_assoc]
  · rw [List.mem_singleton.mp hobj]
    simp [start, length_costs, dimension, Nat.add_assoc]

theorem line_start (problem : Problem α) {i : Nat} (hi : i < problem.constraints.length) :
    problem.start.tableau.line i
      = problem.constraints[i].line problem.constraints.length i := by
  rw [Tableau.line_of_lt _ (by simpa using hi)]
  simp [start]

theorem basis_start (problem : Problem α) {i : Nat} (hi : i < problem.start.basis.length) :
    problem.start.basis[i] = problem.dimension + i := by
  simp [start]

end Shape

end Problem

section Slack

/-- The slack of a row at a point, which is zero for an equality. -/
def Constraint.room (row : Constraint ℚ) (x : List ℚ) : ℚ :=
  row.relation.slack * (row.rhs - dot row.coefficients x)

theorem Constraint.room_nonneg {row : Constraint ℚ} {x : List ℚ} (h : row.Holds x) :
    0 ≤ row.room x := by
  unfold Constraint.Holds at h
  cases hr : row.relation with
  | atMost =>
    simp only [hr] at h
    simp only [Constraint.room, hr, Relation.slack]
    linarith
  | atLeast =>
    simp only [hr] at h
    simp only [Constraint.room, hr, Relation.slack]
    linarith
  | equal => simp [Constraint.room, hr, Relation.slack]

/-- A row that is satisfied becomes an equation with its slack. -/
theorem Constraint.add_slack_mul_room {row : Constraint ℚ} {x : List ℚ} (h : row.Holds x) :
    dot row.coefficients x + row.relation.slack * row.room x = row.rhs := by
  unfold Constraint.Holds at h
  cases hr : row.relation with
  | atMost =>
    simp only [Constraint.room, hr, Relation.slack]
    ring
  | atLeast =>
    simp only [Constraint.room, hr, Relation.slack]
    ring
  | equal =>
    simp only [hr] at h
    simp [Relation.slack, h]

/-- An equation with a non-negative slack means that the row is satisfied. -/
theorem Constraint.holds_of_add_slack {row : Constraint ℚ} {x : List ℚ} {a : ℚ} (ha : 0 ≤ a)
    (h : dot row.coefficients x + row.relation.slack * a = row.rhs) : row.Holds x := by
  unfold Constraint.Holds
  cases hr : row.relation <;> simp only [hr, Relation.slack] at h ⊢ <;> linarith

theorem gap_line (row : Constraint ℚ) {count index : ℕ} (hi : index < count) (x : ℕ → ℚ) :
    gap (row.line count index) x
      = linearForm row.coefficients x
        + row.relation.slack * x (row.coefficients.length + index) - row.rhs := by
  have hslack : linearForm
      ((List.range count).map fun j => if j = index then row.relation.slack else 0)
      (fun k => x (row.coefficients.length + k))
      = row.relation.slack * x (row.coefficients.length + index) := by
    rw [linearForm, List.length_map, List.length_range,
      Finset.sum_eq_single_of_mem index (Finset.mem_range.mpr hi)]
    · simp [List.getD, hi]
    · intro j hj hne
      simp [List.getD, Finset.mem_range.mp hj, hne]
  rw [Constraint.line, gap_concat, linearForm_append, hslack]

end Slack

/-- The factor by which the costs of a problem differ from its coefficients. -/
def Sense.sign : Sense → ℚ
  | .minimise => 1
  | .maximise => -1

@[simp] theorem Sense.sign_mul_self (sense : Sense) : sense.sign * sense.sign = 1 := by
  cases sense <;> norm_num [sign]

/-- Whatever the sense, the better of two values is the one of less cost. -/
theorem Sense.improves_iff (sense : Sense) (a b : ℚ) :
    sense.Improves a b ↔ sense.sign * a < sense.sign * b := by
  cases sense <;> simp [Sense.Improves, Sense.sign]

namespace Problem

variable {problem : Problem ℚ}

theorem gap_line_start (h : problem.fault? = none) {i : ℕ}
    (hi : i < problem.constraints.length) (x : ℕ → ℚ) :
    gap (problem.start.tableau.line i) x
      = linearForm problem.constraints[i].coefficients x
        + problem.constraints[i].relation.slack * x (problem.dimension + i)
        - problem.constraints[i].rhs := by
  rw [line_start problem hi, gap_line _ hi, length_coefficients h (List.getElem_mem hi)]

/-- A point with the slack of every row. -/
def withSlack (problem : Problem ℚ) (x : List ℚ) : ℕ → ℚ := fun j =>
  if j < problem.dimension then x.getD j 0
  else (problem.constraints[j - problem.dimension]?).elim 0 (·.room x)

/-- The first entries of a point. -/
def withoutSlack (problem : Problem ℚ) (x : ℕ → ℚ) : List ℚ :=
  (List.range problem.dimension).map x

theorem withSlack_nonneg {x : List ℚ} (h : problem.Feasible x) (j : ℕ) :
    0 ≤ problem.withSlack x j := by
  unfold withSlack
  split
  · rename_i hj
    rw [List.getD_eq_getElem _ _ (h.length_eq ▸ hj)]
    exact h.nonneg _ (List.getElem_mem _)
  · cases hrow : problem.constraints[j - problem.dimension]? with
    | none => exact le_rfl
    | some row => exact row.room_nonneg (h.holds row (List.mem_of_getElem? hrow))

theorem withSlack_of_idle {j : ℕ} (hj : j ∈ problem.idleColumns) (x : List ℚ) :
    problem.withSlack x j = 0 := by
  obtain ⟨i, hi, heq, rfl⟩ := mem_idleColumns.mp hj
  simp [withSlack, hi, Constraint.room, heq, Relation.slack]

theorem withSlack_of_le {j : ℕ} (hj : problem.dimension + problem.constraints.length ≤ j)
    (x : List ℚ) : problem.withSlack x j = 0 := by
  have hrow : problem.constraints[j - problem.dimension]? = none :=
    List.getElem?_eq_none (by omega)
  rw [withSlack, if_neg (by omega), hrow]
  rfl

theorem linearForm_withSlack {entries : List ℚ} (h : entries.length = problem.dimension)
    (x : List ℚ) : linearForm entries (problem.withSlack x) = dot entries x := by
  rw [dot_eq_linearForm]
  apply Finset.sum_congr rfl
  intro j hj
  rw [withSlack, if_pos (h ▸ Finset.mem_range.mp hj)]

theorem dot_withoutSlack {entries : List ℚ} (h : entries.length = problem.dimension)
    (x : ℕ → ℚ) : dot entries (problem.withoutSlack x) = linearForm entries x := by
  rw [dot_eq_linearForm]
  apply Finset.sum_congr rfl
  intro j hj
  have hlt : j < problem.dimension := h ▸ Finset.mem_range.mp hj
  simp [withoutSlack, List.getD, hlt]

/-- A feasible point with its slack solves the equations of the start tableau. -/
theorem solvedBy_withSlack (hfault : problem.fault? = none) {x : List ℚ}
    (h : problem.Feasible x) : problem.start.tableau.SolvedBy (problem.withSlack x) := by
  rw [Tableau.solvedBy_iff]
  intro i hi
  rw [length_rows_start] at hi
  have hroom : problem.withSlack x (problem.dimension + i) = problem.constraints[i].room x := by
    simp [withSlack, hi]
  rw [gap_line_start hfault hi, linearForm_withSlack (length_coefficients hfault
    (List.getElem_mem hi)), hroom, Constraint.add_slack_mul_room
    (h.holds _ (List.getElem_mem hi)), sub_self]

/-- A non-negative solution of the start tableau is feasible without its slack. -/
theorem feasible_withoutSlack (hfault : problem.fault? = none) {x : ℕ → ℚ}
    (hs : problem.start.tableau.SolvedBy x)
    (hx : ∀ j < problem.dimension + problem.constraints.length, 0 ≤ x j) :
    problem.Feasible (problem.withoutSlack x) where
  length_eq := by simp [withoutSlack]
  nonneg := by
    intro v hv
    obtain ⟨j, hj, rfl⟩ := List.mem_map.mp hv
    exact hx j (Nat.lt_add_right _ (List.mem_range.mp hj))
  holds := by
    intro row hr
    obtain ⟨i, hi, rfl⟩ := List.mem_iff_getElem.mp hr
    have hgap := Tableau.solvedBy_iff.mp hs i (by simpa using hi)
    rw [gap_line_start hfault hi] at hgap
    apply Constraint.holds_of_add_slack (hx (problem.dimension + i) (Nat.add_lt_add_left hi _))
    rw [dot_withoutSlack (length_coefficients hfault hr)]
    linarith

theorem objective_start_eq (problem : Problem ℚ) :
    problem.start.tableau.objective
      = problem.objective.costs ++ List.replicate problem.constraints.length 0 ++ [0] := by
  simp [start, List.replicate_succ']

theorem rhs_objective_start (problem : Problem ℚ) : rhs problem.start.tableau.objective = 0 := by
  rw [objective_start_eq, rhs_append]

theorem gap_objective_start (problem : Problem ℚ) (x : ℕ → ℚ) :
    gap problem.start.tableau.objective x = linearForm problem.objective.costs x := by
  rw [objective_start_eq, gap_concat, linearForm_append, linearForm_replicate_zero, add_zero,
    sub_zero]

theorem linearForm_costs (problem : Problem ℚ) (x : ℕ → ℚ) :
    linearForm problem.objective.costs x
      = problem.objective.sense.sign * linearForm problem.objective.coefficients x := by
  cases hs : problem.objective.sense with
  | minimise => simp [Objective.costs, hs, Sense.sign]
  | maximise =>
    rw [Objective.costs, hs, Sense.sign, linearForm, linearForm, List.length_map, Finset.mul_sum]
    apply Finset.sum_congr rfl
    intro j _
    rw [getD_neg]
    ring

/-- The objective row at a point is the signed value of the point. -/
theorem gap_objective_withSlack (problem : Problem ℚ) (x : List ℚ) :
    gap problem.start.tableau.objective (problem.withSlack x)
      = problem.objective.sense.sign * problem.value x := by
  rw [gap_objective_start, linearForm_costs, linearForm_withSlack rfl, value]

/-- The objective row at a point is the signed value of the point without its slack. -/
theorem gap_objective_withoutSlack (problem : Problem ℚ) (x : ℕ → ℚ) :
    gap problem.start.tableau.objective x
      = problem.objective.sense.sign * problem.value (problem.withoutSlack x) := by
  rw [gap_objective_start, linearForm_costs, value, dot_withoutSlack rfl]

end Problem

end SimplexMethod
