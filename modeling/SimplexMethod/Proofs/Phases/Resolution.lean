import SimplexMethod.Proofs.Phases.Discerned
import SimplexMethod.Proofs.Tableau.Minors

/-!
# The resolution of a problem

The data of a problem bound from below every number other than zero that a solve may meet: the
entries, the bounds, the costs, and the sum of the artificial columns compared with the largest
bound. A tolerance below this resolution discerns the problem.
-/

namespace SimplexMethod

theorem den_dvd_foldr_lcm {values : List ℚ} {a : ℚ} (h : a ∈ values) :
    a.den ∣ (values.map Rat.den).foldr Nat.lcm 1 := by
  induction values with
  | nil => exact absurd h List.not_mem_nil
  | cons value values ih =>
    rcases List.mem_cons.mp h with rfl | hold
    · exact Nat.dvd_lcm_left _ _
    · exact (ih hold).trans (Nat.dvd_lcm_right _ _)

theorem mul_mem_of_den_dvd {d : ℕ} {a : ℚ} (h : a.den ∣ d) : (d : ℚ) * a ∈ integers := by
  obtain ⟨k, rfl⟩ := h
  refine RingHom.mem_range.mpr ⟨k * a.num, ?_⟩
  rw [Nat.cast_mul, mul_comm (a.den : ℚ), mul_assoc, mul_comm (a.den : ℚ), Rat.mul_den_eq_num]
  simp

namespace Problem

variable {problem : Problem ℚ}

/-- The coefficients of the rows. -/
def coefficients (problem : Problem ℚ) : List ℚ :=
  problem.constraints.flatMap (·.coefficients)

/-- The numbers that state the problem. -/
def numbers (problem : Problem ℚ) : List ℚ :=
  problem.objective.coefficients ++ problem.coefficients ++ problem.constraints.map (·.rhs)

/-- The least common denominator of the numbers that state the problem. -/
def denominator (problem : Problem ℚ) : ℕ :=
  (problem.numbers.map Rat.den).foldr Nat.lcm 1

/-- The largest magnitude among one and the coefficients of the rows. -/
def size (problem : Problem ℚ) : ℚ :=
  (problem.coefficients.map fun a => |a|).foldl max 1

/-- A bound for the denominators that the entries of a tableau of the problem may have. -/
def granularity (problem : Problem ℚ) : ℚ :=
  problem.denominator ^ problem.constraints.length
    * (problem.constraints.length.factorial * problem.size ^ problem.constraints.length)

/-- No number other than zero that a solve may compare with the tolerance has a smaller
magnitude. -/
def resolution (problem : Problem ℚ) : ℚ :=
  1 / (problem.granularity * problem.denominator * problem.scale)

section Data

theorem mul_mem_of_mem_numbers {a : ℚ} (h : a ∈ problem.numbers) :
    (problem.denominator : ℚ) * a ∈ integers :=
  mul_mem_of_den_dvd (den_dvd_foldr_lcm h)

theorem one_le_denominator (problem : Problem ℚ) : (1 : ℚ) ≤ problem.denominator := by
  have hpos : ∀ values : List ℚ, 0 < (values.map Rat.den).foldr Nat.lcm 1 := by
    intro values
    induction values with
    | nil => exact one_pos
    | cons value values ih => exact Nat.lcm_pos value.den_pos ih
  exact_mod_cast hpos problem.numbers

theorem one_le_size (problem : Problem ℚ) : 1 ≤ problem.size :=
  (le_foldl_max _ 1).1

theorem one_le_granularity (problem : Problem ℚ) : 1 ≤ problem.granularity := by
  have hfactorial : (1 : ℚ) ≤ problem.constraints.length.factorial := by
    exact_mod_cast Nat.one_le_iff_ne_zero.mpr (Nat.factorial_ne_zero _)
  exact one_le_mul_of_one_le_of_one_le (one_le_pow₀ problem.one_le_denominator)
    (one_le_mul_of_one_le_of_one_le hfactorial (one_le_pow₀ problem.one_le_size))

theorem coefficient_mem (i : ℕ) (hi : i < problem.constraints.length) (j : ℕ) :
    (problem.denominator : ℚ) * problem.constraints[i].coefficients.getD j 0 ∈ integers ∧
      |problem.constraints[i].coefficients.getD j 0| ≤ problem.size := by
  rcases Nat.lt_or_ge j problem.constraints[i].coefficients.length with hj | hj
  · rw [List.getD_eq_getElem _ _ hj]
    have hmem : problem.constraints[i].coefficients[j] ∈ problem.coefficients :=
      List.mem_flatMap.mpr ⟨_, List.getElem_mem hi, List.getElem_mem hj⟩
    refine ⟨mul_mem_of_mem_numbers ?_, (le_foldl_max _ 1).2 _ (List.mem_map.mpr ⟨_, hmem, rfl⟩)⟩
    exact List.mem_append_left _ (List.mem_append_right _ hmem)
  · rw [List.getD_eq_default _ _ hj, mul_zero, abs_zero]
    exact ⟨zero_mem _, zero_le_one.trans problem.one_le_size⟩

theorem rhs_mem {row : Constraint ℚ} (hr : row ∈ problem.constraints) :
    (problem.denominator : ℚ) * row.rhs ∈ integers :=
  mul_mem_of_mem_numbers (List.mem_append_right _ (List.mem_map.mpr ⟨row, hr, rfl⟩))

theorem slack_mem (relation : Relation) :
    (relation.slack : ℚ) ∈ integers ∧ |(relation.slack : ℚ)| ≤ 1 := by
  cases relation with
  | atMost => exact ⟨one_mem _, by norm_num [Relation.slack]⟩
  | atLeast => exact ⟨neg_mem (one_mem _), by norm_num [Relation.slack]⟩
  | equal => exact ⟨zero_mem _, by norm_num [Relation.slack]⟩

end Data

section Graded

/-- A whole number is a fraction with any denominator. -/
theorem denominator_mul_mem {a : ℚ} (h : a ∈ integers) :
    (problem.denominator : ℚ) * a ∈ integers :=
  mul_mem (RingHom.mem_range.mpr ⟨problem.denominator, by simp⟩) h

theorem rowSign_mul_mem {tolerance a : ℚ} {i : ℕ}
    (ha : (problem.denominator : ℚ) * a ∈ integers) :
    (problem.denominator : ℚ) * (problem.start.rowSign tolerance i * a) ∈ integers := by
  rw [mul_left_comm, Position.rowSign]
  split
  · exact mul_mem (neg_mem (one_mem _)) ha
  · exact mul_mem (one_mem _) ha

variable (h : problem.fault? = none)

include h

/-- The entries of the start tableau are the coefficients of the problem and those of its slack. -/
theorem graded_start : problem.start.tableau.Graded
    (problem.dimension + problem.constraints.length) problem.denominator problem.size := by
  have hentry : ∀ i < problem.constraints.length,
      ∀ j < problem.dimension + problem.constraints.length,
      (problem.denominator : ℚ) * problem.start.tableau.entry i j ∈ integers ∧
        |problem.start.tableau.entry i j| ≤ problem.size := by
    intro i hi j hj
    rcases Nat.lt_or_ge j problem.dimension with hlt | hge
    · rw [entry_start_of_lt h hi hlt]
      exact coefficient_mem i hi j
    · obtain ⟨k, rfl⟩ := Nat.exists_eq_add_of_le hge
      rw [entry_start_slack h hi (by omega)]
      split
      · obtain ⟨hmem, hle⟩ := slack_mem problem.constraints[i].relation
        exact ⟨denominator_mul_mem hmem, hle.trans problem.one_le_size⟩
      · rw [mul_zero, abs_zero]
        exact ⟨zero_mem _, zero_le_one.trans problem.one_le_size⟩
  constructor
  · intro i hi j hj
    exact (hentry i (by simpa using hi) j hj).1
  · intro i hi
    rw [length_rows_start] at hi
    rw [rhs_line_start problem hi]
    exact rhs_mem (List.getElem_mem hi)
  · intro i hi j hj
    exact (hentry i (by simpa using hi) j hj).2

/-- The preparation changes signs and adds unit columns. -/
theorem graded_auxiliary (tolerance : ℚ) : (problem.auxiliary tolerance).tableau.Graded
    (problem.dimension + problem.constraints.length
      + (problem.start.lackingRows tolerance).length) problem.denominator problem.size := by
  have hstart := graded_start h
  have hentry : ∀ i < problem.constraints.length,
      ∀ j < problem.dimension + problem.constraints.length
        + (problem.start.lackingRows tolerance).length,
      (problem.denominator : ℚ) * (problem.auxiliary tolerance).tableau.entry i j ∈ integers ∧
        |(problem.auxiliary tolerance).tableau.entry i j| ≤ problem.size := by
    intro i hi j hj
    have hi' : i < problem.start.tableau.rows.length := by simpa using hi
    rcases Nat.lt_or_ge j (problem.dimension + problem.constraints.length) with hlt | hge
    · rw [entry_auxiliary_of_lt h hi hlt, abs_mul, Position.abs_rowSign, one_mul]
      exact ⟨rowSign_mul_mem (hstart.mul_entry_mem i hi' j hlt), hstart.abs_entry_le i hi' j hlt⟩
    · obtain ⟨k, rfl⟩ := Nat.exists_eq_add_of_le hge
      rw [entry_auxiliary_add h hi (by omega)]
      split
      · rw [abs_one]
        exact ⟨denominator_mul_mem (one_mem _), problem.one_le_size⟩
      · rw [mul_zero, abs_zero]
        exact ⟨zero_mem _, zero_le_one.trans problem.one_le_size⟩
  constructor
  · intro i hi j hj
    exact (hentry i (length_rows_auxiliary problem tolerance ▸ hi) j hj).1
  · intro i hi
    rw [length_rows_auxiliary] at hi
    rw [rhs_line_auxiliary hi]
    exact rowSign_mul_mem (hstart.mul_rhs_mem i (by simpa using hi))
  · intro i hi j hj
    exact (hentry i (length_rows_auxiliary problem tolerance ▸ hi) j hj).2

end Graded

theorem formAt_objective_start (problem : Problem ℚ) (x : ℕ → ℚ) :
    formAt problem.start.tableau.objective x
      = problem.objective.sense.sign * linearForm problem.objective.coefficients x := by
  have hrhs : rhs problem.start.tableau.objective = 0 := by
    rw [start, List.replicate_succ', ← List.append_assoc, rhs_append]
  rw [← linearForm_costs, ← gap_objective_start, gap, hrhs, sub_zero]

/-- A common denominator of a position that states the start tableau is one of its costs, apart from
the denominator of the problem. -/
theorem mul_cost_mem {q : Position ℚ} {width : ℕ} (hq : q.Restates problem.start.tableau width)
    {d : ℚ} (hover : q.Over width d) {column : ℕ} (hc : column < width) :
    problem.denominator * d * q.tableau.objective.getD column 0 ∈ integers := by
  have hsign : problem.objective.sense.sign ∈ integers := by
    cases problem.objective.sense with
    | minimise => exact one_mem _
    | maximise => exact neg_mem (one_mem _)
  have hcost : q.tableau.objective.getD column 0
      = problem.objective.sense.sign
        * linearForm problem.objective.coefficients (q.direction column) := by
    rw [← formAt_objective_start, ← hq.canonical.formAt_objective_direction hq.hasWidth hc]
    exact hq.agrees.symm.formAt_eq (hq.canonical.solvedBy_point hq.hasWidth)
      fun row hr => hq.canonical.formAt_row_direction hq.hasWidth hc hr
  rw [hcost, mul_left_comm, linearForm, Finset.mul_sum]
  apply mul_mem hsign
  apply sum_mem
  intro j hj
  have hlt := Finset.mem_range.mp hj
  rw [List.getD_eq_getElem _ _ hlt, mul_mul_mul_comm]
  have hcoefficient : problem.objective.coefficients[j] ∈ problem.numbers :=
    List.mem_append_left _ (List.mem_append_left _ (List.getElem_mem hlt))
  exact mul_mem (mul_mem_of_mem_numbers hcoefficient)
    (hover.mul_direction_mem hq.canonical.length_eq hc j)

section Resolution

variable {tolerance : ℚ} (htol : 0 ≤ tolerance) (hlt : tolerance < problem.resolution)

include htol hlt

theorem mul_tolerance_lt_one {x y z : ℚ} (hx : |x| ≤ problem.granularity)
    (hy : |y| ≤ problem.denominator) (hz : |z| ≤ problem.scale) : |x * y * z| * tolerance < 1 := by
  have hG := problem.one_le_granularity
  have hd := problem.one_le_denominator
  have hpos : 0 < problem.granularity * problem.denominator * problem.scale :=
    mul_pos (mul_pos (zero_lt_one.trans_le hG) (zero_lt_one.trans_le hd))
      (zero_lt_one.trans_le problem.one_le_scale)
  have hle : |x * y * z| ≤ problem.granularity * problem.denominator * problem.scale := by
    rw [abs_mul, abs_mul]
    exact mul_le_mul (mul_le_mul hx hy (abs_nonneg _) (zero_le_one.trans hG)) hz (abs_nonneg _)
      (mul_nonneg (zero_le_one.trans hG) (zero_le_one.trans hd))
  calc
    |x * y * z| * tolerance
        ≤ problem.granularity * problem.denominator * problem.scale * tolerance :=
      mul_le_mul_of_nonneg_right hle htol
    _ < 1 := by
      rw [mul_comm]
      exact (lt_div_iff₀ hpos).mp hlt

theorem granularity_mul_lt_one : problem.granularity * tolerance < 1 := by
  have hnonneg := zero_le_one.trans problem.one_le_granularity
  have hone := mul_tolerance_lt_one htol hlt (abs_of_nonneg hnonneg).le
    (abs_one.trans_le problem.one_le_denominator) (abs_one.trans_le problem.one_le_scale)
  rwa [mul_one, mul_one, abs_of_nonneg hnonneg] at hone

variable (h : problem.fault? = none)

include h

/-- A tolerance below the resolution of a problem discerns it. -/
theorem discerned_of_lt_resolution : problem.Discerned tolerance where
  bounds := by
    intro row hr
    have hnonneg := zero_le_one.trans problem.one_le_denominator
    have hone := mul_tolerance_lt_one htol hlt (abs_one.trans_le problem.one_le_granularity)
      (abs_of_nonneg hnonneg).le (abs_one.trans_le problem.one_le_scale)
    rw [one_mul, mul_one] at hone
    exact Discerned.of_mul_mem (zero_lt_one.trans_le problem.one_le_denominator).ne' hone
      (rhs_mem hr)
  first := by
    apply (graded_auxiliary h tolerance).rowsDiscerned (hasWidth_auxiliary h)
      problem.one_le_denominator problem.one_le_size htol
    rw [length_rows_auxiliary]
    exact granularity_mul_lt_one htol hlt
  sum := by
    intro q hq
    obtain ⟨d, hne, hle, hover⟩ := hq.exists_over (hasWidth_auxiliary h)
      (graded_auxiliary h tolerance) problem.one_le_denominator problem.one_le_size
    rw [length_rows_auxiliary] at hle
    have hone := mul_tolerance_lt_one htol hlt hle (abs_one.trans_le problem.one_le_denominator)
      (abs_of_nonneg (zero_le_one.trans problem.one_le_scale)).le
    have hsum : d * -rhs q.tableau.objective ∈ integers := by
      rw [hq.neg_rhs_eq_sum (extends_auxiliary h), Finset.mul_sum]
      exact sum_mem fun k _ => hover.mul_point_mem hq.canonical.length_eq _
    rw [mul_one, abs_mul, abs_of_nonneg (zero_le_one.trans problem.one_le_scale), mul_assoc,
      mul_comm problem.scale] at hone
    rw [mul_neg, neg_mem_iff] at hsum
    exact Discerned.of_mul_mem hne hone hsum
  second := by
    apply (graded_start h).rowsDiscerned (hasWidth_start h) problem.one_le_denominator
      problem.one_le_size htol
    rw [length_rows_start]
    exact granularity_mul_lt_one htol hlt

theorem costsDiscerned_of_lt_resolution : problem.CostsDiscerned tolerance where
  first := by
    intro q hq j hj
    obtain ⟨d, hne, hle, hover⟩ := hq.exists_over (hasWidth_auxiliary h)
      (graded_auxiliary h tolerance) problem.one_le_denominator problem.one_le_size
    rw [length_rows_auxiliary] at hle
    apply Discerned.of_mul_mem hne
      ((mul_le_mul_of_nonneg_right hle htol).trans_lt (granularity_mul_lt_one htol hlt))
    rw [hq.cost_eq_sum (extends_auxiliary h) hj, Finset.mul_sum]
    exact sum_mem fun k _ => hover.mul_direction_mem hq.canonical.length_eq hj _
  second := by
    intro q hq j hj
    obtain ⟨d, hne, hle, hover⟩ := hq.exists_over (hasWidth_start h) (graded_start h)
      problem.one_le_denominator problem.one_le_size
    rw [length_rows_start] at hle
    have hdenominator := zero_lt_one.trans_le problem.one_le_denominator
    have hone := mul_tolerance_lt_one htol hlt hle (abs_of_pos hdenominator).le
      (abs_one.trans_le problem.one_le_scale)
    rw [mul_one, mul_comm d] at hone
    exact Discerned.of_mul_mem (mul_ne_zero hdenominator.ne' hne) hone (mul_cost_mem hq hover hj)

end Resolution

end Problem

end SimplexMethod
