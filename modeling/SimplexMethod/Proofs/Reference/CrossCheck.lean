import SimplexMethod.Proofs.Reference.Agreement
import SimplexMethod.Proofs.Solve.Trichotomy

/-!
# What a cross check says

An oracle that answers the standard form rightly settles the problem: the signs that the standard
form puts on rows and costs are undone by the reading of the answer, so a minimiser is read as an
optimal point with its value in the problem's own sense, and the other verdicts mean what they say.
-/

namespace SimplexMethod

namespace Problem

variable {problem : Problem ℚ}

/-- A minimiser of the standard form is an optimal point. -/
theorem optimal_of_minimal {x : List ℚ} (h : problem.standardForm.Minimal x) :
    problem.Optimal x where
  toFeasible := (feasible_standardForm_iff problem x).mp h.toFeasible
  best := by
    intro y hy
    have hleast := h.least y ((feasible_standardForm_iff problem y).mpr hy)
    rw [costs_standardForm, costs_standardForm] at hleast
    rwa [Sense.improves_iff, not_lt]

/-- What costs in the standard form, read in the sense of the problem. -/
theorem costs_mul_factor (problem : Problem ℚ) (x : List ℚ) :
    dot problem.standardForm.costs x * problem.objective.sense.factor = problem.value x := by
  rw [costs_standardForm, Sense.factor_eq_sign, mul_right_comm, Sense.sign_mul_self, one_mul]

/-- The values of an unbounded problem have no best. -/
theorem Optimal.not_unbounded {x : List ℚ} (h : problem.Optimal x) : ¬ problem.Unbounded := by
  intro hunbounded
  obtain ⟨y, hy, himproves⟩ := hunbounded (problem.value x)
  exact h.best y hy himproves

theorem Unbounded.exists_feasible (h : problem.Unbounded) : ∃ x, problem.Feasible x := by
  obtain ⟨x, hx, -⟩ := h 0
  exact ⟨x, hx⟩

end Problem

/-- The cross check decides the problem: it shows an optimal point and what it is worth if there is
one, and otherwise says why there is none. An unbounded problem has feasible points. -/
structure CrossCheck.Settles (check : CrossCheck ℚ) (problem : Problem ℚ) : Prop where
  decided : check.status = .optimal ∨ check.status = .infeasible ∨ check.status = .unbounded
  optimal : check.status = .optimal → ∃ x, problem.Optimal x ∧ check.point = some x ∧
    check.objectiveValue = some (problem.value x)
  optimal_iff : check.status = .optimal ↔ ∃ x, problem.Optimal x
  infeasible_iff : check.status = .infeasible ↔ ∀ x, ¬ problem.Feasible x
  unbounded_iff : check.status = .unbounded ↔
    (∃ x, problem.Feasible x) ∧ problem.Unbounded
  silent : check.status ≠ .optimal → check.point = none ∧ check.objectiveValue = none

/-- Whatever rows a problem has, an oracle that answers its standard form settles it. -/
theorem crossCheck_settles {problem : Problem ℚ} (h : problem.fault? = none)
    {oracle : StandardForm ℚ → Verdict ℚ} (horacle : problem.standardForm.AnsweredBy oracle) :
    ∃ check, problem.crossCheck oracle = .ok check ∧ check.Settles problem := by
  refine ⟨_, Problem.crossCheck_eq h oracle, ?_⟩
  rcases problem.exists_optimal_or_infeasible_or_unbounded h with ⟨x, hx⟩ | hnone | hunbounded
  · obtain ⟨point, hminimal, hanswer⟩ := horacle.optimal x (Problem.minimal_standardForm hx)
    have hpoint := Problem.optimal_of_minimal hminimal
    rw [hanswer, Problem.reading, Problem.costs_mul_factor]
    exact {
      decided := .inl rfl
      optimal := fun _ => ⟨point, hpoint, rfl, rfl⟩
      optimal_iff := ⟨fun _ => ⟨point, hpoint⟩, fun _ => rfl⟩
      infeasible_iff := ⟨nofun, fun hnone => absurd hpoint.toFeasible (hnone point)⟩
      unbounded_iff := ⟨nofun, fun hunbounded => absurd hunbounded.2 hpoint.not_unbounded⟩
      silent := fun hstatus => absurd rfl hstatus }
  · rw [horacle.infeasible fun x hx =>
      hnone x ((Problem.feasible_standardForm_iff problem x).mp hx), Problem.reading]
    exact {
      decided := .inr (.inl rfl)
      optimal := nofun
      optimal_iff := ⟨nofun, fun ⟨x, hx⟩ => absurd hx.toFeasible (hnone x)⟩
      infeasible_iff := ⟨fun _ => hnone, fun _ => rfl⟩
      unbounded_iff := ⟨nofun, fun ⟨⟨x, hx⟩, _⟩ => absurd hx (hnone x)⟩
      silent := fun _ => ⟨rfl, rfl⟩ }
  · obtain ⟨x, hx⟩ := hunbounded.exists_feasible
    rw [horacle.unbounded (Problem.unbounded_standardForm hunbounded), Problem.reading]
    exact {
      decided := .inr (.inr rfl)
      optimal := nofun
      optimal_iff := ⟨nofun, fun ⟨y, hy⟩ => absurd hunbounded hy.not_unbounded⟩
      infeasible_iff := ⟨nofun, fun hnone => absurd hx (hnone x)⟩
      unbounded_iff := ⟨fun _ => ⟨⟨x, hx⟩, hunbounded⟩, fun _ => rfl⟩
      silent := fun _ => ⟨rfl, rfl⟩ }

/-- Maximise `x + 2y` where `x + y ≤ 4`, `x ≥ 1` and `y = 2`. -/
def Problem.mixed : Problem ℚ where
  objective := ⟨[1, 2], .maximise⟩
  constraints :=
    [{ coefficients := [1, 1], rhs := 4, relation := .atMost },
      { coefficients := [1, 0], rhs := 1, relation := .atLeast },
      { coefficients := [0, 1], rhs := 2, relation := .equal }]

theorem Problem.minimal_mixed : Problem.mixed.standardForm.Minimal [2, 2] := by
  apply Problem.minimal_standardForm
  refine ⟨by decide +kernel, ?_⟩
  intro y hy himproves
  obtain ⟨a, b, rfl⟩ := List.length_eq_two.mp hy.length_eq
  have hfirst := hy.holds _ List.mem_cons_self
  have hthird := hy.holds _ (List.mem_cons_of_mem _ (List.mem_cons_of_mem _ List.mem_cons_self))
  simp only [Constraint.Holds, Sense.Improves, Problem.value, Problem.mixed, dot_cons, dot_nil]
    at hfirst hthird himproves
  linarith

theorem crossCheck_mixed :
    ∃ check, Problem.mixed.crossCheck
        (fun form => .optimal [2, 2] (dot form.costs [2, 2])) = .ok check ∧
      check.status = .optimal ∧ check.point = some [2, 2] ∧ check.objectiveValue = some 6 ∧
      Problem.mixed.Optimal [2, 2] := by
  obtain ⟨check, hcheck, hsettles⟩ :=
    @crossCheck_settles .mixed (by decide +kernel)
      (fun form => .optimal [2, 2] (dot form.costs [2, 2]))
      (StandardForm.answeredBy_of_minimal Problem.minimal_mixed)
  have hpoint : check.point = some [2, 2] := by
    rw [Problem.crossCheck_eq (by decide +kernel)] at hcheck
    obtain rfl := Except.ok.inj hcheck
    rfl
  have hstatus : check.status = .optimal :=
    hsettles.optimal_iff.mpr ⟨_, Problem.optimal_of_minimal Problem.minimal_mixed⟩
  obtain ⟨x, hoptimal, hx, hvalue⟩ := hsettles.optimal hstatus
  obtain rfl : [2, 2] = x := Option.some.inj (hpoint.symm.trans hx)
  have hsix : Problem.mixed.value [2, 2] = 6 := by decide +kernel
  exact ⟨check, hcheck, hstatus, hpoint, hsix ▸ hvalue, hoptimal⟩

end SimplexMethod
