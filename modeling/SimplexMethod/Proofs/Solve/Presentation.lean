import SimplexMethod.Proofs.Phases.Auxiliary
import SimplexMethod.Proofs.Solve.Routes
import SimplexMethod.Proofs.Solve.Verdicts

/-!
# Presentations of a problem

A lower bound may be written as an upper bound of the negated form, and a maximisation as the
minimisation of the negated form. The preparation judges both presentations of a row differently,
but what it makes of them is the same, so the whole solve is: only the sign of the reported value
follows the sense.
-/

namespace SimplexMethod

section Rephrased

variable {α : Type} [Scalar α]

/-- The row as an upper bound of the negated form. -/
def Constraint.turned (row : Constraint α) : Constraint α :=
  { row with
    coefficients := row.coefficients.map (- ·)
    rhs := -row.rhs
    relation := .atMost }

/-- The row as an upper bound if it is a lower bound and `chosen`. -/
def Constraint.rephrased (row : Constraint α) (chosen : Bool) : Constraint α :=
  if chosen ∧ row.relation = .atLeast then row.turned else row

/-- The objective as a minimisation. -/
def Objective.minimised (objective : Objective α) : Objective α :=
  ⟨objective.costs, .minimise⟩

/-- The problem with the chosen lower bounds as upper bounds, and as a minimisation if wanted. -/
def Problem.rephrased (problem : Problem α) (chosen : Nat → Bool) (minimised : Bool) :
    Problem α where
  objective := if minimised then problem.objective.minimised else problem.objective
  constraints := problem.constraints.mapIdx fun index row => row.rephrased (chosen index)

end Rephrased

section Row

variable {tolerance : ℚ}

/-- Where the one presentation keeps a row the other negates it; both lack a start or neither. -/
theorem rowStart_turned (htol : 0 ≤ tolerance) (bound : ℚ) :
    (rowStart tolerance 1 (-bound)).lacks = (rowStart tolerance (-1) bound).lacks ∧
      (rowStart tolerance 1 (-bound)).negates = !(rowStart tolerance (-1) bound).negates := by
  have hlower : ¬ (0 : ℚ) < -1 := by norm_num
  have hupper : ¬ (1 : ℚ) < 0 := by norm_num
  by_cases hbound : bound ≤ tolerance
  · have hready : rowStart tolerance 1 (-bound) = .ready :=
      if_pos ⟨one_pos, neg_le_neg hbound⟩
    have hnegated : rowStart tolerance (-1) bound = .negated := by
      rw [rowStart, if_neg fun h => hlower h.1, if_pos ⟨by norm_num, hbound⟩]
    rw [hready, hnegated]
    exact ⟨rfl, rfl⟩
  · have hpos : 0 < bound := htol.trans_lt (not_le.mp hbound)
    have hnegated : rowStart tolerance 1 (-bound) = .negatedLacking := by
      rw [rowStart, if_neg fun h => hbound (neg_le_neg_iff.mp h.2), if_neg fun h => hupper h.1,
        if_pos (neg_lt_zero.mpr hpos)]
    have hlacking : rowStart tolerance (-1) bound = .lacking := by
      rw [rowStart, if_neg fun h => hlower h.1, if_neg fun h => hbound h.2,
        if_neg (not_lt.mpr hpos.le)]
    rw [hnegated, hlacking]
    exact ⟨rfl, rfl⟩

theorem Constraint.line_turned {row : Constraint ℚ} (hr : row.relation = .atLeast)
    (count index : ℕ) : row.turned.line count index = (row.line count index).map (- ·) := by
  have hslack : ∀ j, (if j = index then (1 : ℚ) else 0) = -(if j = index then -1 else 0) := by
    intro j
    split <;> norm_num
  simp [line, turned, hr, Relation.slack, hslack]

/-- The row after the change of sign that its preparation makes. -/
def Constraint.signedLine (row : Constraint ℚ) (tolerance : ℚ) (count index : ℕ) : List ℚ :=
  if (rowStart tolerance row.relation.slack row.rhs).negates then
    (row.line count index).map (- ·)
  else
    row.line count index

theorem Constraint.signedLine_turned {row : Constraint ℚ} (hr : row.relation = .atLeast)
    (htol : 0 ≤ tolerance) (count index : ℕ) :
    row.turned.signedLine tolerance count index = row.signedLine tolerance count index := by
  have hnegates : (rowStart tolerance row.turned.relation.slack row.turned.rhs).negates
      = !(rowStart tolerance row.relation.slack row.rhs).negates := by
    rw [hr]
    exact (rowStart_turned htol row.rhs).2
  rw [signedLine, signedLine, line_turned hr]
  cases hsign : (rowStart tolerance row.relation.slack row.rhs).negates with
  | true => simp [hnegates, hsign]
  | false => simp [hnegates, hsign]

/-- What the preparation makes of a row does not depend on its presentation. -/
theorem Constraint.prepared_rephrased (htol : 0 ≤ tolerance) (row : Constraint ℚ) (chosen : Bool)
    (count index : ℕ) :
    (rowStart tolerance (row.rephrased chosen).relation.slack (row.rephrased chosen).rhs).lacks
        = (rowStart tolerance row.relation.slack row.rhs).lacks ∧
      (row.rephrased chosen).signedLine tolerance count index
        = row.signedLine tolerance count index := by
  unfold rephrased
  split
  · rename_i h
    refine ⟨?_, signedLine_turned h.2 htol count index⟩
    rw [h.2]
    exact (rowStart_turned htol row.rhs).1
  · exact ⟨rfl, rfl⟩

theorem Constraint.relation_rephrased_eq (row : Constraint ℚ) (chosen : Bool) :
    (row.rephrased chosen).relation = .equal ↔ row.relation = .equal := by
  unfold rephrased
  split
  · rename_i h
    simp [turned, h.2]
  · rfl

end Row

namespace Problem

variable {problem : Problem ℚ} (chosen : ℕ → Bool) (minimised : Bool)

@[simp] theorem length_rephrased :
    (problem.rephrased chosen minimised).constraints.length = problem.constraints.length := by
  simp [rephrased]

@[simp] theorem dimension_rephrased :
    (problem.rephrased chosen minimised).dimension = problem.dimension := by
  cases minimised
  · rfl
  · exact length_costs problem.objective

theorem getElem_rephrased {i : ℕ} (hi : i < problem.constraints.length)
    (hi' : i < (problem.rephrased chosen minimised).constraints.length) :
    (problem.rephrased chosen minimised).constraints[i]
      = problem.constraints[i].rephrased (chosen i) := by
  simp [rephrased]

theorem costs_rephrased :
    (problem.rephrased chosen minimised).objective.costs = problem.objective.costs := by
  cases minimised <;> rfl

/-- Every presentation of an accepted problem is accepted. -/
theorem fault?_rephrased (h : problem.fault? = none) :
    (problem.rephrased chosen minimised).fault? = none := by
  obtain ⟨hpos, -, hrows⟩ := fault?_eq_none_iff.mp h
  refine fault?_eq_none_iff.mpr ⟨by simpa using hpos, fun _ _ => rfl, ?_⟩
  intro row hr
  obtain ⟨i, hi, rfl⟩ := List.mem_mapIdx.mp hr
  refine ⟨?_, fun _ _ => rfl, rfl⟩
  have hlength := (hrows _ (List.getElem_mem hi)).length_eq
  rw [dimension_rephrased]
  unfold Constraint.rephrased
  split
  · simpa [Constraint.turned] using hlength
  · exact hlength

theorem basis_start_rephrased :
    (problem.rephrased chosen minimised).start.basis = problem.start.basis := by
  simp [start]

theorem objective_start_rephrased :
    (problem.rephrased chosen minimised).start.tableau.objective
      = problem.start.tableau.objective := by
  simp [start, costs_rephrased]

theorem idleColumns_rephrased :
    (problem.rephrased chosen minimised).idleColumns = problem.idleColumns := by
  have hplaces : (problem.rephrased chosen minimised).constraints.zipIdx
      = problem.constraints.zipIdx.map fun place =>
          (place.1.rephrased (chosen place.2), place.2) := by
    apply List.ext_getElem
    · simp
    · intro i hi _
      simp [rephrased]
  rw [idleColumns, idleColumns, hplaces, List.filterMap_map, dimension_rephrased]
  apply List.filterMap_congr
  rintro ⟨row, index⟩ -
  simp only [Function.comp_apply, row.relation_rephrased_eq]

section Preparation

variable {tolerance : ℚ} (h : problem.fault? = none)

include h

theorem line_signed_start {i : ℕ} (hi : i < problem.constraints.length) :
    (problem.start.signed tolerance).line i
      = problem.constraints[i].signedLine tolerance problem.constraints.length i := by
  rw [Position.line_signed (length_basis_eq_rows _) (by simpa using hi), startOf_start h _ hi,
    line_start problem hi]
  rfl

variable (htol : 0 ≤ tolerance)

include htol

theorem lackingRows_start_rephrased :
    (problem.rephrased chosen minimised).start.lackingRows tolerance
      = problem.start.lackingRows tolerance := by
  rw [Position.lackingRows_eq_filter, Position.lackingRows_eq_filter, basis_start_rephrased]
  apply List.filter_congr
  intro i hi
  have hi' : i < problem.constraints.length := by simpa using hi
  have hlt : i < (problem.rephrased chosen minimised).constraints.length := by simpa using hi'
  rw [startOf_start h tolerance hi', ← basis_start_rephrased chosen minimised,
    startOf_start (fault?_rephrased chosen minimised h) tolerance hlt,
    getElem_rephrased chosen minimised hi' hlt]
  exact (Constraint.prepared_rephrased htol _ _ problem.constraints.length i).1

theorem signed_start_rephrased :
    (problem.rephrased chosen minimised).start.signed tolerance
      = problem.start.signed tolerance := by
  have hrows : ((problem.rephrased chosen minimised).start.signed tolerance).rows
      = (problem.start.signed tolerance).rows := by
    apply List.ext_getElem
    · simp
    · intro i hi hi'
      have hlt : i < problem.constraints.length := by simpa using hi'
      have hlt' : i < (problem.rephrased chosen minimised).constraints.length := by simpa using hlt
      rw [← Tableau.line_of_lt _ hi, ← Tableau.line_of_lt _ hi',
        line_signed_start (fault?_rephrased chosen minimised h) hlt', line_signed_start h hlt,
        getElem_rephrased chosen minimised hlt hlt', length_rephrased]
      exact (Constraint.prepared_rephrased htol _ _ _ i).2
  have hobjective : ((problem.rephrased chosen minimised).start.signed tolerance).objective
      = (problem.start.signed tolerance).objective := by
    rw [Position.objective_signed (length_basis_eq_rows _),
      Position.objective_signed (length_basis_eq_rows _), objective_start_rephrased]
  exact (Tableau.mk.injEq ..).mpr ⟨hrows, hobjective⟩

/-- All presentations are prepared alike. -/
theorem prepare_start_rephrased :
    (problem.rephrased chosen minimised).start.prepare tolerance
      = problem.start.prepare tolerance := by
  by_cases hnone : problem.start.lackingRows tolerance = []
  · have hnone' := (lackingRows_start_rephrased chosen minimised h htol).trans hnone
    rw [Position.prepare_of_eq_nil hnone, Position.prepare_of_eq_nil hnone',
      signed_start_rephrased chosen minimised h htol, basis_start_rephrased]
  · have hlacks := lackingRows_start_rephrased chosen minimised h htol
    have hwidth := hasWidth_start (fault?_rephrased chosen minimised h)
    rw [length_rephrased, dimension_rephrased] at hwidth
    rw [Position.prepare_of_ne_nil (hasWidth_start h) hnone,
      Position.prepare_of_ne_nil hwidth (hlacks ▸ hnone), hlacks,
      signed_start_rephrased chosen minimised h htol, Position.artificialBasis,
      Position.artificialBasis, basis_start_rephrased]

end Preparation

end Problem

section Mirrored

/-- The report with the negated objective value, if wanted. -/
def Report.mirrored (report : Report ℚ) (negated : Bool) : Report ℚ :=
  { report with
    objectiveValue := report.objectiveValue.map fun value => if negated then -value else value }

/-- A maximisation that is presented as a minimisation has the negated value. -/
def Problem.mirrors (problem : Problem ℚ) (minimised : Bool) : Bool :=
  minimised && problem.objective.sense = .maximise

@[simp] theorem Report.mirrored_false (report : Report ℚ) : report.mirrored false = report := by
  simp [mirrored]

theorem Report.mirrored_withNote (report : Report ℚ) (negated : Bool) (note : String) :
    (report.mirrored negated).withNote note = (report.withNote note).mirrored negated := by
  unfold withNote
  split <;> rfl

/-- The value of a position is negated when its maximisation is read as a minimisation. -/
theorem Position.report_minimise (p : Position ℚ) (n : ℕ) (iterations : ℤ) (barred : List ℕ)
    (tolerance : ℚ) :
    p.report n .minimise iterations barred tolerance
      = (p.report n .maximise iterations barred tolerance).mirrored true := by
  simp only [report, objectiveValue, Report.mirrored, Scalar.clean_neg, Option.map_some, if_true]

theorem Position.report_rephrased (p : Position ℚ) (problem : Problem ℚ) (chosen : ℕ → Bool)
    (minimised : Bool) (n : ℕ) (iterations : ℤ) (barred : List ℕ) (tolerance : ℚ) :
    p.report n (problem.rephrased chosen minimised).objective.sense iterations barred tolerance
      = (p.report n problem.objective.sense iterations barred tolerance).mirrored
          (problem.mirrors minimised) := by
  cases minimised with
  | false => simp [Problem.rephrased, Problem.mirrors]
  | true =>
    cases hsense : problem.objective.sense with
    | minimise => simp [Problem.rephrased, Problem.mirrors, Objective.minimised, hsense]
    | maximise =>
      simp [Problem.rephrased, Problem.mirrors, Objective.minimised, hsense, p.report_minimise]

end Mirrored

namespace Problem

variable {problem : Problem ℚ} (chosen : ℕ → Bool) (minimised : Bool) {options : Options ℚ}

theorem secondRun_rephrased (position : Position ℚ) (earlier : ℕ) :
    secondRun (problem.rephrased chosen minimised) options position earlier
      = secondRun problem options position earlier := by
  rw [secondRun, secondRun, idleColumns_rephrased]

theorem secondReport_rephrased (earlier : ℕ) (run : Run ℚ) :
    secondReport (problem.rephrased chosen minimised) options earlier run
      = (secondReport problem options earlier run).map
          (·.mirrored (problem.mirrors minimised)) := by
  unfold secondReport
  cases run.ending with
  | unbounded column => rfl
  | stopped => rfl
  | noBasicColumn => rfl
  | optimal =>
    simp only [Position.reportAt, dimension_rephrased, idleColumns_rephrased,
      Position.report_rephrased]
    cases run.last.solutionAt problem.dimension <;> rfl

section Solve

variable (h : problem.fault? = none) (htol : 0 ≤ options.tolerance)

include h htol

theorem firstPhase_rephrased :
    firstPhase (problem.rephrased chosen minimised).start options
        (problem.rephrased chosen minimised).idleColumns
      = firstPhase problem.start options problem.idleColumns := by
  rw [firstPhase, firstPhase, (framed_start (fault?_rephrased chosen minimised h)).prepareAt_eq_ok,
    (framed_start h).prepareAt_eq_ok, prepare_start_rephrased chosen minimised h htol,
    objective_start_rephrased, idleColumns_rephrased]

/-- Both phases are the same, and so is the report up to the sign of the value. -/
theorem solveTwoPhase_rephrased :
    solveTwoPhase (problem.rephrased chosen minimised) options
      = (solveTwoPhase problem options).map fun outcome =>
          { outcome with report := outcome.report.mirrored (problem.mirrors minimised) } := by
  rw [solveTwoPhase, solveTwoPhase, firstPhase_rephrased chosen minimised h htol]
  cases firstPhase problem.start options problem.idleColumns with
  | error fault => rfl
  | ok first =>
    simp only [bind, Except.bind]
    cases first.entry with
    | stopped => rfl
    | infeasible sum => rfl
    | unbounded => rfl
    | feasible reduced =>
      simp only [secondRun_rephrased, secondReport_rephrased]
      cases secondReport problem options first.iterations
          (secondRun problem options reduced.position first.iterations) with
      | error fault => rfl
      | ok report =>
        simp only [Except.map, Report.mirrored_withNote]
        rfl

end Solve

end Problem

/-- Both results tell of the same run; the value of the second is the negated one of the first if
`negated`. -/
structure Result.Mirrors (negated : Bool) (one other : Result ℚ) : Prop where
  history_eq : other.history = one.history
  status_eq : other.report.status = one.report.status
  iterations_eq : other.report.iterations = one.report.iterations
  solution_eq : other.report.solution = one.report.solution
  message_eq : other.report.message = one.report.message
  alternativeOptima_eq : other.report.alternativeOptima = one.report.alternativeOptima
  objectiveValue_eq : other.report.objectiveValue
    = one.report.objectiveValue.map fun value => if negated then -value else value

/-- Whichever lower bounds are presented as upper bounds and whether a maximisation is presented as
a minimisation, the solve is the same, and only the change of sense negates the value. -/
theorem solve_rephrased {problem : Problem ℚ} {options : Options ℚ} (h : problem.fault? = none)
    (htwo : options.twoPhase = true) (htol : 0 ≤ options.tolerance) (chosen : ℕ → Bool)
    (minimised : Bool) :
    ∃ one other, solve problem options = .ok one ∧
      solve (problem.rephrased chosen minimised) options = .ok other ∧
      Option.Rel (Result.Mirrors (minimised && problem.objective.sense = .maximise))
        one.result? other.result? := by
  by_cases hrows : problem.constraints = []
  · have hrows' : (problem.rephrased chosen minimised).constraints = [] := by
      simp [Problem.rephrased, hrows]
    exact ⟨_, _, solve_eq_of_nil hrows, solve_eq_of_nil hrows', .none⟩
  · have hrows' : (problem.rephrased chosen minimised).constraints ≠ [] := by
      simpa [Problem.rephrased] using hrows
    obtain ⟨outcome, houtcome, -⟩ := exists_solveTwoPhase h options
    have hother : solveTwoPhase (problem.rephrased chosen minimised) options
        = .ok { outcome with report := outcome.report.mirrored (problem.mirrors minimised) } := by
      rw [Problem.solveTwoPhase_rephrased chosen minimised h htol, houtcome]
      rfl
    exact ⟨_, _, solve_eq_of_twoPhase h hrows htwo houtcome,
      solve_eq_of_twoPhase (Problem.fault?_rephrased chosen minimised h) hrows' htwo hother,
      .some ⟨rfl, rfl, rfl, rfl, rfl, rfl, rfl⟩⟩

/-- Maximise `-x - 2y` where `x + y ≥ 2` and `-x ≥ -3`. -/
def Problem.floored : Problem ℚ where
  objective := ⟨[-1, -2], .maximise⟩
  constraints :=
    [{ coefficients := [1, 1], rhs := 2, relation := .atLeast },
      { coefficients := [-1, 0], rhs := -3, relation := .atLeast }]

theorem solve_rephrased_floored :
    ∃ one other : Outcome ℚ, solve .floored {} = .ok (.solved one) ∧
      solve (Problem.floored.rephrased (fun _ => true) true) {} = .ok (.solved other) ∧
      other.history = one.history ∧ other.report.solution = one.report.solution ∧
      one.report.status = .optimal ∧ one.report.objectiveValue = some (-2) ∧
      other.report.objectiveValue = some 2 := by
  obtain ⟨one, hone, -⟩ := @exists_solve ℚ _ .floored {} (by decide +kernel)
    (by simp [Problem.floored]) rfl
  obtain ⟨other, hother, -⟩ := @exists_solve ℚ _
    (Problem.floored.rephrased (fun _ => true) true) {} (by decide +kernel)
    (by simp [Problem.floored, Problem.rephrased]) rfl
  obtain ⟨_, _, hfirst, hsecond, hmirrors⟩ :=
    @solve_rephrased .floored {} (by decide +kernel) rfl (by decide +kernel) (fun _ => true) true
  obtain rfl := Except.ok.inj (hfirst.symm.trans hone)
  obtain rfl := Except.ok.inj (hsecond.symm.trans hother)
  have hvalue : one.report.objectiveValue = some (-2) :=
    eq_of_solve hone (·.report.objectiveValue) (by decide +kernel)
  cases hmirrors with
  | some hmirrors =>
    have hnegated : other.report.objectiveValue = some 2 := by
      have hsign := hmirrors.objectiveValue_eq
      change _ = one.report.objectiveValue.map _ at hsign
      rw [hvalue] at hsign
      exact hsign.trans (by decide +kernel)
    exact ⟨one, other, hone, hother, hmirrors.history_eq, hmirrors.solution_eq,
      status_of_solve hone (by decide +kernel), hvalue, hnegated⟩

end SimplexMethod
