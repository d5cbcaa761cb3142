import SimplexMethod.Proofs.Random.Uniform
import SimplexMethod.Proofs.Solve.Prepared
import SimplexMethod.Proofs.Solve.Routes
import SimplexMethod.Proofs.Solve.Verdicts
import SimplexMethod.Random.Instance

/-!
# Random instances are feasible and bounded

Every problem that is drawn has positive costs and rows of positive coefficients under positive
bounds, so the origin is feasible and each row bounds all variables at once. A solve of it needs no
first phase and neither calls it infeasible nor unbounded.
-/

namespace SimplexMethod

/-- A row over `n` variables of which the numbers lie where they are drawn. -/
structure Constraint.Drawn (row : Constraint ℚ) (n : ℕ) : Prop where
  relation_eq : row.relation = .atMost
  length_eq : row.coefficients.length = n
  coefficients_mem : ∀ a ∈ row.coefficients, a ∈ Set.Ico (1 / 2 : ℚ) 5
  rhs_mem : row.rhs ∈ Set.Ico (2 * n : ℚ) (6 * n)

/-- A problem of `n` variables and `m` rows of which the numbers lie where they are drawn. -/
structure Problem.Drawn (problem : Problem ℚ) (n m : ℕ) : Prop where
  sense_eq : problem.objective.sense = .maximise
  dimension_eq : problem.dimension = n
  costs_mem : ∀ a ∈ problem.objective.coefficients, a ∈ Set.Ico (1 : ℚ) 4
  length_eq : problem.constraints.length = m
  rows : ∀ row ∈ problem.constraints, row.Drawn n

namespace Random

variable {n : ℕ} (hn : 0 < n)

include hn

theorem drawn_row (index : ℕ) (twister : Twister) :
    (row n index twister : Constraint ℚ × Twister).1.Drawn n where
  relation_eq := rfl
  length_eq := twister.length_uniforms _ _ n
  coefficients_mem := by
    have hlow : (0.5 : ℚ) = 1 / 2 := by norm_num
    have hhigh : (5.0 : ℚ) = 5 := by norm_num
    change ∀ a ∈ (twister.uniforms (0.5 : ℚ) 5.0 n).1, _
    rw [hlow, hhigh]
    exact twister.uniforms_mem (by norm_num) n
  rhs_mem := by
    have hlow : (Scalar.ofNat n : ℚ) * 2.0 = 2 * n := by
      rw [Scalar.ofNat_eq_cast, mul_comm]
      norm_num
    have hhigh : (Scalar.ofNat n : ℚ) * 6.0 = 6 * n := by
      rw [Scalar.ofNat_eq_cast, mul_comm]
      norm_num
    have hlt : (2 * n : ℚ) < 6 * n := by
      have hpos : (0 : ℚ) < n := Nat.cast_pos.mpr hn
      linarith
    change ((twister.uniforms (0.5 : ℚ) 5.0 n).2.uniform
      ((Scalar.ofNat n : ℚ) * 2.0) (Scalar.ofNat n * 6.0)).1 ∈ _
    rw [hlow, hhigh]
    exact Twister.uniform_mem hlt _

theorem drawn_rows (count index : ℕ) (twister : Twister) :
    (rows n count index twister : List (Constraint ℚ) × Twister).1.length = count ∧
      ∀ row ∈ (rows n count index twister : List (Constraint ℚ) × Twister).1, row.Drawn n := by
  induction count generalizing index twister with
  | zero => exact ⟨rfl, fun row hr => absurd hr List.not_mem_nil⟩
  | succ count ih =>
    obtain ⟨hlength, hrows⟩ :=
      ih (index + 1) (row n index twister : Constraint ℚ × Twister).2
    refine ⟨congrArg (· + 1) hlength, ?_⟩
    intro constraint hr
    rcases List.mem_cons.mp hr with rfl | hr
    · exact drawn_row hn index twister
    · exact hrows constraint hr

/-- Whatever the seed, the numbers of a random problem lie where they are drawn. -/
theorem drawn_problem (m : ℕ) (seed : ℤ) : (problem n m seed : Problem ℚ).Drawn n m where
  sense_eq := rfl
  dimension_eq := Twister.length_uniforms _ _ _ n
  costs_mem := by
    have hlow : (1.0 : ℚ) = 1 := by norm_num
    have hhigh : (4.0 : ℚ) = 4 := by norm_num
    change ∀ a ∈ ((rows n m 0 (Twister.ofSeed seed) :
      List (Constraint ℚ) × Twister).2.uniforms (1.0 : ℚ) 4.0 n).1, _
    rw [hlow, hhigh]
    exact Twister.uniforms_mem (by norm_num) _ n
  length_eq := (drawn_rows hn m 0 (Twister.ofSeed seed)).1
  rows := (drawn_rows hn m 0 (Twister.ofSeed seed)).2

end Random

section Forms

theorem dot_replicate_zero (entries : List ℚ) (n : ℕ) :
    dot entries (List.replicate n 0) = 0 := by
  rw [dot_eq_linearForm]
  apply Finset.sum_eq_zero
  intro j _
  change entries.getD j 0 * (List.replicate n 0).getD j 0 = 0
  rcases Nat.lt_or_ge j n with hj | hj
  · rw [List.getD_replicate 0 hj, mul_zero]
  · rw [List.getD_eq_default (List.replicate n 0) 0 (by simpa using hj), mul_zero]

theorem getD_nonneg {x : List ℚ} (h : ∀ a ∈ x, 0 ≤ a) (j : ℕ) : 0 ≤ x.getD j 0 := by
  rcases Nat.lt_or_ge j x.length with hj | hj
  · rw [List.getD_eq_getElem _ _ hj]
    exact h _ (List.getElem_mem hj)
  · rw [List.getD_eq_default _ _ hj]

/-- A form with coefficients of at most a multiple of those of another is at most that multiple of
it at a point without negative entries. -/
theorem dot_le_mul_dot {entries others x : List ℚ} {factor : ℚ}
    (hlen : entries.length = others.length)
    (hle : ∀ j < entries.length, entries.getD j 0 ≤ factor * others.getD j 0)
    (hx : ∀ a ∈ x, 0 ≤ a) : dot entries x ≤ factor * dot others x := by
  rw [dot_eq_linearForm, dot_eq_linearForm, linearForm, linearForm, ← hlen, Finset.mul_sum]
  apply Finset.sum_le_sum
  intro j hj
  rw [← mul_assoc]
  exact mul_le_mul_of_nonneg_right (hle j (Finset.mem_range.mp hj)) (getD_nonneg hx j)

end Forms

namespace Constraint.Drawn

variable {row : Constraint ℚ} {n : ℕ} (h : row.Drawn n)

include h

theorem holds_iff (x : List ℚ) : row.Holds x ↔ dot row.coefficients x ≤ row.rhs := by
  rw [Holds, h.relation_eq]

theorem rhs_nonneg : 0 ≤ row.rhs :=
  (mul_nonneg zero_le_two (Nat.cast_nonneg n)).trans h.rhs_mem.1

theorem getD_mem {j : ℕ} (hj : j < n) : row.coefficients.getD j 0 ∈ Set.Ico (1 / 2 : ℚ) 5 := by
  rw [List.getD_eq_getElem _ _ (h.length_eq.symm ▸ hj)]
  exact h.coefficients_mem _ (List.getElem_mem _)

/-- A single row bounds every variable. -/
theorem lt_of_holds {x : List ℚ} (hlen : x.length = n) (hx : ∀ a ∈ x, 0 ≤ a)
    (hholds : row.Holds x) : ∀ a ∈ x, a < 12 * n := by
  intro a ha
  obtain ⟨j, hj, rfl⟩ := List.mem_iff_getElem.mp ha
  have hjn : j < n := hlen ▸ hj
  have hform : dot row.coefficients x < 6 * n :=
    ((h.holds_iff x).mp hholds).trans_lt h.rhs_mem.2
  have hterm : row.coefficients.getD j 0 * x.getD j 0 ≤ dot row.coefficients x := by
    rw [dot_eq_linearForm]
    apply Finset.single_le_sum (f := fun k => row.coefficients.getD k 0 * x.getD k 0) _
      (Finset.mem_range.mpr (h.length_eq.symm ▸ hjn))
    intro k hk
    have hcoefficient := (h.getD_mem (h.length_eq ▸ Finset.mem_range.mp hk)).1
    exact mul_nonneg (by linarith) (getD_nonneg hx k)
  have hhalf : 1 / 2 * x.getD j 0 ≤ row.coefficients.getD j 0 * x.getD j 0 :=
    mul_le_mul_of_nonneg_right (h.getD_mem hjn).1 (getD_nonneg hx j)
  rw [← List.getD_eq_getElem x 0 hj]
  linarith

end Constraint.Drawn

namespace Problem.Drawn

variable {problem : Problem ℚ} {n m : ℕ} (h : problem.Drawn n m)

include h

theorem fault?_eq_none (hn : 0 < n) : problem.fault? = none := by
  refine fault?_eq_none_iff.mpr ⟨h.dimension_eq.symm ▸ hn, fun _ _ => rfl, ?_⟩
  intro row hr
  exact
    { length_eq := (h.rows row hr).length_eq.trans h.dimension_eq.symm
      coefficients_finite := fun _ _ => rfl
      rhs_finite := rfl }

theorem feasible_origin : problem.Feasible (List.replicate n 0) where
  length_eq := (List.length_replicate).trans h.dimension_eq.symm
  nonneg := fun _ ha => (List.eq_of_mem_replicate ha).ge
  holds := by
    intro row hr
    rw [(h.rows row hr).holds_iff, dot_replicate_zero]
    exact (h.rows row hr).rhs_nonneg

/-- No row lacks a start. -/
theorem lackingRows_eq_nil (hn : 0 < n) {tolerance : ℚ} (htol : 0 ≤ tolerance) :
    problem.start.lackingRows tolerance = [] := by
  rw [List.eq_nil_iff_forall_not_mem]
  intro i hmem
  obtain ⟨hi, hlacks⟩ := (mem_lackingRows_iff_lacks (h.fault?_eq_none hn) htol).mp hmem
  have hrow := h.rows _ (List.getElem_mem hi)
  rw [Constraint.Lacks, hrow.relation_eq] at hlacks
  exact absurd hrow.rhs_nonneg (not_le.mpr (hlacks.trans_le (neg_nonpos.mpr htol)))

variable (hm : 0 < m)

include hm

theorem exists_row : ∃ row ∈ problem.constraints, row.Drawn n := by
  obtain ⟨row, hr⟩ := List.length_pos_iff_exists_mem.mp (h.length_eq.symm ▸ hm)
  exact ⟨row, hr, h.rows row hr⟩

theorem lt_of_feasible {x : List ℚ} (hx : problem.Feasible x) : ∀ a ∈ x, a < 12 * n := by
  obtain ⟨row, hr, hrow⟩ := h.exists_row hm
  exact hrow.lt_of_holds (hx.length_eq.trans h.dimension_eq) hx.nonneg (hx.holds row hr)

/-- The costs are less than eight times the coefficients of any row. -/
theorem value_lt {x : List ℚ} (hx : problem.Feasible x) : problem.value x < 48 * n := by
  obtain ⟨row, hr, hrow⟩ := h.exists_row hm
  have hlen : problem.objective.coefficients.length = row.coefficients.length :=
    h.dimension_eq.trans hrow.length_eq.symm
  have hcosts : ∀ j < problem.objective.coefficients.length,
      problem.objective.coefficients.getD j 0 ≤ 8 * row.coefficients.getD j 0 := by
    intro j hj
    have hcost := (h.costs_mem _ (List.getElem_mem hj)).2
    have hcoefficient := (hrow.getD_mem (hj.trans_eq h.dimension_eq)).1
    rw [List.getD_eq_getElem _ _ hj]
    linarith
  calc
    problem.value x ≤ 8 * dot row.coefficients x := dot_le_mul_dot hlen hcosts hx.nonneg
    _ ≤ 8 * row.rhs :=
      mul_le_mul_of_nonneg_left ((hrow.holds_iff x).mp (hx.holds row hr)) (by norm_num)
    _ < 8 * (6 * n) := mul_lt_mul_of_pos_left hrow.rhs_mem.2 (by norm_num)
    _ = 48 * n := by ring

theorem not_unbounded : ¬ problem.Unbounded := by
  intro hunbounded
  obtain ⟨x, hx, himproves⟩ := hunbounded (48 * n)
  simp only [Sense.Improves, h.sense_eq] at himproves
  exact absurd (h.value_lt hm hx) (not_lt.mpr himproves.le)

end Problem.Drawn

/-- Where no row lacks a start, all snapshots are of the second phase. -/
theorem Course.phase_eq_two {α : Type} [Scalar α] {problem : Problem α} {options : Options α}
    {outcome : Outcome α} (hcourse : Course problem options outcome)
    (hnone : problem.start.lackingRows options.tolerance = []) :
    ∀ snapshot ∈ outcome.history, snapshot.phase = 2 := by
  intro snapshot hmem
  rcases List.mem_append.mp hmem with hmem | hmem
  · obtain ⟨first, hfirst, hsearch⟩ := hcourse.exists_first
    cases hrun : first.run with
    | none =>
      rw [hfirst, Option.elim_some, FirstPhase.snapshots, hrun] at hmem
      exact absurd hmem List.not_mem_nil
    | some run => exact absurd hnone (hsearch.of_run hrun).1
  · exact Outcome.phase_of_mem_secondSnapshots hmem

/-- The problem is accepted and bounded, the origin is feasible, and a solve without a tolerance
makes no first phase and finds an optimal point unless it is stopped. -/
structure Problem.Solvable (problem : Problem ℚ) (n : ℕ) : Prop where
  validate_eq : problem.validate = .ok n
  feasible_origin : problem.Feasible (List.replicate n 0)
  lt_of_feasible : ∀ x, problem.Feasible x → ∀ a ∈ x, a < 12 * n
  exists_outcome : ∀ options : Options ℚ, options.twoPhase = true → options.tolerance = 0 →
    ∃ outcome, solve problem options = .ok (.solved outcome) ∧
      (∀ snapshot ∈ outcome.history, snapshot.phase = 2) ∧
      outcome.report.status ∈ [.optimal, .optimalWithAlternatives, .iterationLimit]

theorem Problem.Drawn.solvable {problem : Problem ℚ} {n m : ℕ} (h : problem.Drawn n m)
    (hn : 0 < n) (hm : 0 < m) : problem.Solvable n where
  validate_eq := h.dimension_eq ▸ validate_eq_ok (h.fault?_eq_none hn)
  feasible_origin := h.feasible_origin
  lt_of_feasible := fun _ hx => h.lt_of_feasible hm hx
  exists_outcome := by
    intro options htwo htol
    have hfault := h.fault?_eq_none hn
    have hrows : problem.constraints ≠ [] := List.length_pos_iff.mp (h.length_eq.symm ▸ hm)
    obtain ⟨outcome, hsolve, hcourse⟩ := exists_solve hfault hrows htwo
    refine ⟨outcome, hsolve, hcourse.phase_eq_two (h.lackingRows_eq_nil hn htol.ge), ?_⟩
    have hright := hcourse.right hfault htol.ge (.of_eq_zero htol problem)
      (.of_eq_zero htol problem)
    generalize outcome.report.status = status at hright ⊢
    cases hright with
    | optimal => simp
    | optimalWithAlternatives => simp
    | iterationLimit => simp
    | infeasible hinfeasible => exact absurd h.feasible_origin (hinfeasible _)
    | unbounded hunbounded => exact absurd hunbounded (h.not_unbounded hm)

/-- Whatever the seed, a random problem has its numbers where they are drawn, is feasible and
bounded, and is solved unless it is stopped. -/
theorem solvable_random {n m : ℕ} (hn : 1 ≤ n) (hm : 1 ≤ m) (seed : ℤ) :
    (Random.problem n m seed : Problem ℚ).Drawn n m ∧
      (Random.problem n m seed : Problem ℚ).Solvable n :=
  ⟨Random.drawn_problem hn m seed, (Random.drawn_problem hn m seed).solvable hn hm⟩

theorem solvable_random_negative :
    (Random.problem 3 2 (-7) : Problem ℚ).Drawn 3 2 ∧
      (Random.problem 3 2 (-7) : Problem ℚ).validate = .ok 3 ∧
      ∃ outcome, solve (Random.problem 3 2 (-7)) { tolerance := (0 : ℚ) } = .ok (.solved outcome) ∧
        outcome.report.status ∈ [.optimal, .optimalWithAlternatives, .iterationLimit] := by
  obtain ⟨hdrawn, hsolvable⟩ := @solvable_random 3 2 (by decide) (by decide) (-7)
  obtain ⟨outcome, hsolve, -, hstatus⟩ := hsolvable.exists_outcome { tolerance := 0 } rfl rfl
  exact ⟨hdrawn, hsolvable.validate_eq, outcome, hsolve, hstatus⟩

end SimplexMethod
