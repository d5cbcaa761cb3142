import SimplexMethod.Proofs.Phases.Auxiliary
import SimplexMethod.Proofs.Solve.Course

/-!
# Solves in one phase and in two

If every row is an upper bound that is below zero by no more than the tolerance, the slack columns
are a start as they stand. The preparation changes nothing then, no pivot is spent on a first phase,
and the second phase is the run that a solve in one phase makes. So both modes give one result. Of
the arithmetic it matters only that zero is below one, the entry of a slack column.
-/

namespace SimplexMethod

variable {α : Type} [Scalar α]

/-- The options with a first phase or without one. -/
def Options.withTwoPhase (options : Options α) (twoPhase : Bool) : Options α :=
  { options with twoPhase }

/-- An upper bound is ready if it is below zero by no more than the tolerance. -/
theorem rowStart_atMost {tolerance bound : α} (hone : (0 : α) < 1) (hbound : -tolerance ≤ bound) :
    rowStart tolerance Relation.atMost.slack bound = .ready :=
  if_pos ⟨hone, hbound⟩

section Modes

variable {problem : Problem α} {options : Options α} (hone : (0 : α) < 1)
  (h : problem.fault? = none)
  (hrows : ∀ row ∈ problem.constraints,
    row.relation = .atMost ∧ -options.tolerance ≤ row.rhs)

include hone h hrows

/-- Every row of the start position is ready. -/
theorem Problem.startOf_start_eq_ready :
    ∀ i < problem.start.basis.length,
      problem.start.startOf options.tolerance (problem.start.basis.getD i 0) i = .ready := by
  intro i hi
  have hi' : i < problem.constraints.length := by simpa using hi
  obtain ⟨hrelation, hbound⟩ := hrows _ (List.getElem_mem hi')
  rw [startOf_start h _ hi', hrelation]
  exact rowStart_atMost hone hbound

/-- The first phase leaves the start position as it is and makes no pivot. -/
theorem firstPhase_eq_start :
    firstPhase problem.start (options.withTwoPhase true) problem.idleColumns
      = .ok ⟨⟨problem.start, [], []⟩, none, .feasible ⟨problem.start, []⟩⟩ := by
  have hready := Problem.startOf_start_eq_ready hone h hrows
  have hlacks : problem.start.lackingRows (options.withTwoPhase true).tolerance = [] :=
    Position.lackingRows_eq_nil_of_ready hready
  have hprepare : problem.start.prepare (options.withTwoPhase true).tolerance
      = ⟨problem.start, [], []⟩ :=
    Position.prepare_eq_self (Problem.length_basis_eq_rows problem) hready
  rw [(Problem.framed_start h).firstPhase_eq_of_nil _ hlacks, hprepare]

/-- A solve in two phases makes the run of a solve in one phase, and reports the same. -/
theorem exists_solves_alike :
    ∃ run report,
      solveSinglePhase problem (options.withTwoPhase false) = .ok ⟨none, some run, report⟩ ∧
      solveTwoPhase problem (options.withTwoPhase true)
        = .ok ⟨some ⟨⟨problem.start, [], []⟩, none, .feasible ⟨problem.start, []⟩⟩, some run,
            report⟩ := by
  obtain ⟨report, hreport, -⟩ := exists_concludes (Problem.framed_start h) problem options 0
  have hsingle : secondReport problem (options.withTwoPhase false) 0
      (secondRun problem (options.withTwoPhase false) problem.start 0) = .ok report := hreport
  have hdouble : secondReport problem (options.withTwoPhase true) 0
      (secondRun problem (options.withTwoPhase true) problem.start 0) = .ok report := hreport
  refine ⟨secondRun problem options problem.start 0, report, ?_, ?_⟩
  · rw [solveSinglePhase, hsingle]
    rfl
  · have hnote : droppedNote [] = "" := rfl
    simp only [solveTwoPhase, firstPhase_eq_start hone h hrows, bind, Except.bind,
      FirstPhase.iterations, Option.elim_none, hdouble, hnote, ite_self]
    rfl

/-- If every row is an upper bound that is below zero by no more than the tolerance, it makes no
difference to the result whether the solve has a first phase. -/
theorem solve_modes_agree :
    ∃ one two, solve problem (options.withTwoPhase false) = .ok one ∧
      solve problem (options.withTwoPhase true) = .ok two ∧ two.result? = one.result? ∧
      (one.result? = none ↔ problem.constraints = []) := by
  by_cases hnone : problem.constraints = []
  · exact ⟨_, _, solve_eq_of_nil hnone, solve_eq_of_nil hnone, rfl, iff_of_true rfl hnone⟩
  · obtain ⟨run, report, hone, htwo⟩ := exists_solves_alike hone h hrows
    exact ⟨_, _, solve_eq_of_singlePhase h hnone rfl hone, solve_eq_of_twoPhase h hnone rfl htwo,
      rfl, iff_of_false nofun hnone⟩

end Modes

/-- Maximise `3x + 2y` where `x + y ≤ 4`, `x + 3y ≤ 6`, `2x - y ≤ 0` and `-x` is at most a negative
double of less than the default tolerance. -/
def Problem.brimming : Problem Float where
  objective := ⟨[3, 2], .maximise⟩
  constraints :=
    [{ coefficients := [1, 1], rhs := 4, relation := .atMost },
      { coefficients := [1, 3], rhs := 6, relation := .atMost },
      { coefficients := [2, -1], rhs := 0, relation := .atMost },
      { coefficients := [-1, 0], rhs := -5e-10, relation := .atMost }]

/-- On doubles both modes make the same pivots. -/
theorem solve_modes_agree_brimming :
    ∃ one two result, solve Problem.brimming { twoPhase := false } = .ok one ∧
      solve Problem.brimming { twoPhase := true } = .ok two ∧ one.result? = some result ∧
      two.result? = some result ∧ result.report.status = .optimal ∧
      result.history.map (·.phase) = [2, 2] := by
  obtain ⟨one, two, hone, htwo, hresult, -⟩ :=
    @solve_modes_agree Float _ .brimming {} (by decide) (by decide +kernel) (by decide +kernel)
  have hread : ((solve Problem.brimming { twoPhase := false }).toOption.bind
      Answer.result?).map (fun result => (result.report.status, result.history.map (·.phase)))
      = some (.optimal, [2, 2]) := by
    decide +kernel
  change solve _ { twoPhase := false } = .ok one at hone
  rw [hone] at hread
  obtain ⟨result, hsome, hread⟩ := Option.map_eq_some_iff.mp hread
  obtain ⟨hstatus, hphases⟩ := Prod.mk.inj hread
  exact ⟨one, two, result, hone, htwo, hsome, hresult.trans hsome, hstatus, hphases⟩

end SimplexMethod
