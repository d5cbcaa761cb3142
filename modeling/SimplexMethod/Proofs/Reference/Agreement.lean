import SimplexMethod.Proofs.Phases.Resolution
import SimplexMethod.Proofs.Solve.Feasibility
import SimplexMethod.Reference.StandardForm

/-!
# Agreement with an oracle

The standard form of a problem has the feasible points of the problem, and its costs are the signed
value. So an oracle that answers the standard form rightly says the same as the method wherever the
verdict of the method is right, which it is if the default tolerance discerns the problem and its
costs.
-/

namespace SimplexMethod

namespace StandardForm

/-- The point has one non-negative entry for each variable, stays within the upper bounds and
satisfies the equations. -/
structure Feasible (form : StandardForm ℚ) (x : List ℚ) : Prop where
  length_eq : x.length = form.costs.length
  nonneg : ∀ v ∈ x, 0 ≤ v
  upper : ∀ row ∈ form.upper, dot row.coefficients x ≤ row.bound
  equal : ∀ row ∈ form.equal, dot row.coefficients x = row.bound

/-- A feasible point of least cost. -/
structure Minimal (form : StandardForm ℚ) (x : List ℚ) : Prop extends Feasible form x where
  least : ∀ y, form.Feasible y → dot form.costs x ≤ dot form.costs y

/-- Feasible points cost less than every bound. -/
def Unbounded (form : StandardForm ℚ) : Prop :=
  ∀ bound, ∃ x, form.Feasible x ∧ dot form.costs x < bound

/-- The oracle returns a minimiser and its value when there is one, and says so when the form is
infeasible or unbounded. -/
structure AnsweredBy (form : StandardForm ℚ) (oracle : StandardForm ℚ → Verdict ℚ) : Prop where
  optimal : ∀ x, form.Minimal x →
    ∃ point, form.Minimal point ∧ oracle form = .optimal point (dot form.costs point)
  infeasible : (∀ x, ¬ form.Feasible x) → oracle form = .infeasible
  unbounded : form.Unbounded → oracle form = .unbounded

variable {form : StandardForm ℚ}

theorem answeredBy_of_minimal {point : List ℚ} (h : form.Minimal point) :
    form.AnsweredBy fun form => .optimal point (dot form.costs point) where
  optimal := fun _ _ => ⟨point, h, rfl⟩
  infeasible := fun hnone => absurd h.toFeasible (hnone point)
  unbounded := by
    intro hunbounded
    obtain ⟨x, hx, hlt⟩ := hunbounded (dot form.costs point)
    exact absurd (h.least x hx) (not_le.mpr hlt)

theorem answeredBy_of_not_feasible (h : ∀ x, ¬ form.Feasible x) :
    form.AnsweredBy fun _ => .infeasible where
  optimal := fun x hx => absurd hx.toFeasible (h x)
  infeasible := fun _ => rfl
  unbounded := by
    intro hunbounded
    obtain ⟨x, hx, -⟩ := hunbounded 0
    exact absurd hx (h x)

end StandardForm

/-- A row holds if what it puts into the standard form does. -/
theorem Constraint.holds_iff (row : Constraint ℚ) (x : List ℚ) :
    row.Holds x ↔ (∀ form ∈ row.upper?, dot form.coefficients x ≤ form.bound) ∧
      ∀ form ∈ row.equal?, dot form.coefficients x = form.bound := by
  have hneg : dot (row.coefficients.map (- ·)) x = -dot row.coefficients x := by
    rw [dot_eq_linearForm, dot_eq_linearForm, linearForm, linearForm, List.length_map,
      ← Finset.sum_neg_distrib]
    apply Finset.sum_congr rfl
    intro j _
    rw [getD_neg, neg_mul]
  cases hr : row.relation <;>
    simp [Holds, upper?, equal?, hr, hneg]

theorem Sense.factor_eq_sign (sense : Sense) : (sense.factor : ℚ) = sense.sign := by
  cases sense <;> rfl

namespace Problem

variable {problem : Problem ℚ}

theorem costs_standardForm (problem : Problem ℚ) (x : List ℚ) :
    dot problem.standardForm.costs x = problem.objective.sense.sign * problem.value x := by
  rw [value, dot_eq_linearForm, dot_eq_linearForm, linearForm, linearForm, standardForm,
    List.length_map, Finset.mul_sum]
  apply Finset.sum_congr rfl
  intro j hj
  rw [Sense.factor_eq_sign, List.getD_eq_getElem _ _ (by simpa using hj),
    List.getD_eq_getElem _ _ (Finset.mem_range.mp hj), List.getElem_map]
  ring

/-- The standard form of a problem has the feasible points of the problem. -/
theorem feasible_standardForm_iff (problem : Problem ℚ) (x : List ℚ) :
    problem.standardForm.Feasible x ↔ problem.Feasible x := by
  have hlength : problem.standardForm.costs.length = problem.dimension := by
    simp [standardForm, dimension]
  constructor
  · intro h
    refine ⟨h.length_eq.trans hlength, h.nonneg, ?_⟩
    intro row hr
    refine (row.holds_iff x).mpr ⟨?_, ?_⟩
    · intro form hform
      exact h.upper form (List.mem_filterMap.mpr ⟨row, hr, hform⟩)
    · intro form hform
      exact h.equal form (List.mem_filterMap.mpr ⟨row, hr, hform⟩)
  · intro h
    refine ⟨h.length_eq.trans hlength.symm, h.nonneg, ?_, ?_⟩
    · intro form hform
      obtain ⟨row, hr, hsome⟩ := List.mem_filterMap.mp hform
      exact ((row.holds_iff x).mp (h.holds row hr)).1 form hsome
    · intro form hform
      obtain ⟨row, hr, hsome⟩ := List.mem_filterMap.mp hform
      exact ((row.holds_iff x).mp (h.holds row hr)).2 form hsome

theorem minimal_standardForm {x : List ℚ} (h : problem.Optimal x) :
    problem.standardForm.Minimal x where
  toFeasible := (feasible_standardForm_iff problem x).mpr h.toFeasible
  least := by
    intro y hy
    have hbest := h.best y ((feasible_standardForm_iff problem y).mp hy)
    rw [Sense.improves_iff, not_lt] at hbest
    rwa [costs_standardForm, costs_standardForm]

theorem unbounded_standardForm (h : problem.Unbounded) : problem.standardForm.Unbounded := by
  intro bound
  obtain ⟨x, hx, himproves⟩ := h (problem.objective.sense.sign * bound)
  refine ⟨x, (feasible_standardForm_iff problem x).mpr hx, ?_⟩
  rwa [Sense.improves_iff, ← mul_assoc, Sense.sign_mul_self, one_mul, ← costs_standardForm]
    at himproves

end Problem

/-- The verdict of an oracle, in the words of a report. -/
def Verdict.status : Verdict ℚ → Status
  | .optimal _ _ => .optimal
  | .infeasible => .infeasible
  | .unbounded => .unbounded
  | .undecided => .iterationLimit

/-- What is known of a problem from a verdict on its standard form. -/
def Problem.reading (problem : Problem ℚ) : Verdict ℚ → CrossCheck ℚ
  | .optimal point value =>
    { status := .optimal
      objectiveValue := some (value * problem.objective.sense.factor)
      point := some point }
  | .infeasible => { status := .infeasible }
  | .unbounded => { status := .unbounded }
  | .undecided => { status := .iterationLimit }

@[simp] theorem Problem.status_reading (problem : Problem ℚ) (verdict : Verdict ℚ) :
    (problem.reading verdict).status = verdict.status := by
  cases verdict <;> rfl

/-- Both halves say the same, an optimum with or without alternatives. -/
structure Comparison.Agrees (comparison : Comparison ℚ) : Prop where
  infeasible : comparison.report.status = .infeasible ↔ comparison.reference.status = .infeasible
  unbounded : comparison.report.status = .unbounded ↔ comparison.reference.status = .unbounded
  optimal : comparison.report.status = .optimal ∨
    comparison.report.status = .optimalWithAlternatives ↔ comparison.reference.status = .optimal

/-- A right verdict is that of an oracle that answers the standard form. -/
theorem Comparison.agrees_of_right {problem : Problem ℚ} {oracle : StandardForm ℚ → Verdict ℚ}
    {comparison : Comparison ℚ} (horacle : problem.standardForm.AnsweredBy oracle)
    (hreference : comparison.reference.status = (oracle problem.standardForm).status)
    (hright : comparison.report.status.Right problem)
    (hlimit : comparison.report.status ≠ .iterationLimit) : comparison.Agrees := by
  have hoptimal : ∀ x, problem.Optimal x → comparison.reference.status = .optimal := by
    intro x hx
    obtain ⟨point, -, hanswer⟩ := horacle.optimal x (Problem.minimal_standardForm hx)
    rw [hreference, hanswer, Verdict.status]
  generalize hstatus : comparison.report.status = status at hright hlimit
  cases hright with
  | optimal hx => constructor <;> simp [hstatus, hoptimal _ hx]
  | optimalWithAlternatives hx => constructor <;> simp [hstatus, hoptimal _ hx]
  | infeasible hnone =>
    rw [horacle.infeasible fun x hx =>
      hnone x ((Problem.feasible_standardForm_iff problem x).mp hx)] at hreference
    constructor <;> simp [hstatus, hreference, Verdict.status]
  | unbounded hunbounded =>
    rw [horacle.unbounded (Problem.unbounded_standardForm hunbounded)] at hreference
    constructor <;> simp [hstatus, hreference, Verdict.status]
  | iterationLimit => exact absurd rfl hlimit

namespace Problem

variable {problem : Problem ℚ} (h : problem.fault? = none) (oracle : StandardForm ℚ → Verdict ℚ)

include h

theorem crossCheck_eq :
    problem.crossCheck oracle = .ok (problem.reading (oracle problem.standardForm)) := by
  have hvalid : problem.validate = .ok problem.dimension := by
    simp [validate, h]
  simp only [crossCheck, hvalid, bind, Except.bind]
  cases oracle problem.standardForm <;> rfl

/-- A comparison puts the report of a solve beside what the oracle says. -/
theorem exists_compare (hrows : problem.constraints ≠ []) :
    ∃ outcome comparison, solve problem {} = .ok (.solved outcome) ∧
      Course problem {} outcome ∧ problem.compare oracle = .ok (some comparison) ∧
      comparison.report = outcome.report ∧
      comparison.reference.status = (oracle problem.standardForm).status := by
  obtain ⟨outcome, hsolve, hcourse⟩ := @exists_solve _ _ problem {} h hrows rfl
  refine ⟨outcome, ⟨outcome.report, _⟩, hsolve, hcourse, ?_, rfl, problem.status_reading _⟩
  simp only [compare, hsolve, crossCheck_eq h oracle]
  rfl

end Problem

/-- If the default tolerance discerns the problem and its costs, as it does when it is below the
resolution of the problem, the report agrees with every oracle that answers the standard form. -/
theorem compare_agrees {problem : Problem ℚ} (h : problem.fault? = none)
    (hrows : problem.constraints ≠ []) {oracle : StandardForm ℚ → Verdict ℚ}
    (horacle : problem.standardForm.AnsweredBy oracle) :
    (1e-9 < problem.resolution → problem.Discerned 1e-9 ∧ problem.CostsDiscerned 1e-9) ∧
      ∃ comparison, problem.compare oracle = .ok (some comparison) ∧
        (problem.Discerned 1e-9 → problem.CostsDiscerned 1e-9 →
          comparison.report.status ≠ .iterationLimit → comparison.Agrees) := by
  have htol : (0 : ℚ) ≤ 1e-9 := by norm_num
  refine ⟨fun hlt => ⟨Problem.discerned_of_lt_resolution htol hlt h,
    Problem.costsDiscerned_of_lt_resolution htol hlt h⟩, ?_⟩
  obtain ⟨outcome, comparison, -, hcourse, hcompare, hreport, hreference⟩ :=
    Problem.exists_compare h oracle hrows
  refine ⟨comparison, hcompare, ?_⟩
  intro hd hcosts hlimit
  have hright := hcourse.right h htol hd hcosts
  rw [← hreport] at hright
  exact Comparison.agrees_of_right horacle hreference hright hlimit

theorem Problem.minimal_attained : Problem.attained.standardForm.Minimal [1, 1] := by
  apply Problem.minimal_standardForm
  refine ⟨by decide +kernel, ?_⟩
  intro y hy himproves
  obtain ⟨a, b, rfl⟩ := List.length_eq_two.mp hy.length_eq
  have hfirst := hy.holds _ List.mem_cons_self
  have hsecond := hy.holds _ (List.mem_cons_of_mem _ List.mem_cons_self)
  simp only [Constraint.Holds, Sense.Improves, Problem.value, Problem.attained, dot_cons, dot_nil]
    at hfirst hsecond himproves
  linarith

theorem compare_agrees_attained :
    ∃ comparison, Problem.attained.compare
        (fun form => .optimal [1, 1] (dot form.costs [1, 1])) = .ok (some comparison) ∧
      comparison.report.status = .optimal ∧ comparison.reference.status = .optimal := by
  obtain ⟨hdiscerned, comparison, hcompare, hagrees⟩ :=
    @compare_agrees .attained (by decide +kernel) (by simp [Problem.attained])
      (fun form => .optimal [1, 1] (dot form.costs [1, 1]))
      (StandardForm.answeredBy_of_minimal Problem.minimal_attained)
  obtain ⟨hd, hcosts⟩ := hdiscerned (by decide +kernel)
  have hreport : ((Problem.attained.compare fun form =>
      .optimal [1, 1] (dot form.costs [1, 1])).toOption.bind id).map (·.report.status)
        = some .optimal := by
    decide +kernel
  rw [hcompare] at hreport
  have hstatus : comparison.report.status = .optimal := Option.some.inj hreport
  exact ⟨comparison, hcompare, hstatus,
    (hagrees hd hcosts (by simp [hstatus])).optimal.mp (.inl hstatus)⟩

/-- Maximise `y` where `x ≤ 10¹⁰`, `y ≤ 1` and `y ≥ 3`. -/
def Problem.lopsided : Problem ℚ where
  objective := ⟨[0, 1], .maximise⟩
  constraints :=
    [{ coefficients := [1, 0], rhs := 1e10, relation := .atMost },
      { coefficients := [0, 1], rhs := 1, relation := .atMost },
      { coefficients := [0, 1], rhs := 3, relation := .atLeast }]

/-- The method finds an optimum where the oracle rightly finds no feasible point. -/
theorem not_agrees_lopsided :
    Problem.lopsided.standardForm.AnsweredBy (fun _ => .infeasible) ∧
      ∃ comparison, Problem.lopsided.compare (fun _ => .infeasible) = .ok (some comparison) ∧
        comparison.report.status = .optimalWithAlternatives ∧
        comparison.reference.status = .infeasible := by
  have hnone : ∀ x, ¬ Problem.lopsided.standardForm.Feasible x := by
    intro x hx
    have hfeasible := (Problem.feasible_standardForm_iff _ x).mp hx
    obtain ⟨a, b, rfl⟩ := List.length_eq_two.mp hfeasible.length_eq
    have hsecond := hfeasible.holds _ (List.mem_cons_of_mem _ List.mem_cons_self)
    have hthird := hfeasible.holds _
      (List.mem_cons_of_mem _ (List.mem_cons_of_mem _ List.mem_cons_self))
    simp only [Constraint.Holds, dot_cons, dot_nil] at hsecond hthird
    linarith
  refine ⟨StandardForm.answeredBy_of_not_feasible hnone, ?_⟩
  obtain ⟨outcome, comparison, hsolve, -, hcompare, hreport, hreference⟩ :=
    @Problem.exists_compare .lopsided (by decide +kernel) (fun _ => .infeasible)
      (by simp [Problem.lopsided])
  refine ⟨comparison, hcompare, ?_, hreference⟩
  rw [hreport]
  exact status_of_solve hsolve (by decide +kernel)

end SimplexMethod
