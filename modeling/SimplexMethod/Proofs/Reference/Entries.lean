import SimplexMethod.Proofs.Problem.Refusal
import SimplexMethod.Proofs.Solve.Routes
import SimplexMethod.Reference.StandardForm
import SimplexMethod.Service

/-!
# The entries that read a problem

Six entries read a problem. Four of them fail if it is ill-formed: validation, the tableau, the
cross-check and the comparison, which has solved the problem by then. A solve and its document do
not fail but answer that the problem is invalid. All six refuse the same problems with the same
words, whatever the options and the oracle.
-/

namespace SimplexMethod

theorem Status.name_eq_invalid_iff {status : Status} :
    status.name = "invalid" ↔ status = .invalid := by
  cases status <;> decide

section Entries

variable {α : Type} [Scalar α]

namespace Problem

variable {problem : Problem α} {oracle : StandardForm α → Verdict α} {fault : ProblemFault}

theorem validate_eq_error (hfault : problem.fault? = some fault) :
    problem.validate = .error fault := by
  rw [validate, hfault]

theorem tableau_eq_error (hfault : problem.fault? = some fault) :
    problem.tableau = .error fault := by
  rw [tableau, validate_eq_error hfault]
  rfl

theorem crossCheck_eq_error (hfault : problem.fault? = some fault) :
    problem.crossCheck oracle = .error fault := by
  rw [crossCheck, validate_eq_error hfault]
  rfl

theorem exists_crossCheck (h : problem.fault? = none) (oracle : StandardForm α → Verdict α) :
    ∃ reference, problem.crossCheck oracle = .ok reference := by
  rw [crossCheck, validate_eq_ok h]
  exact ⟨_, rfl⟩

/-- A comparison fails in its second half: the solve answers that the problem is invalid. -/
theorem compare_eq_error (hfault : problem.fault? = some fault) (hrows : problem.constraints ≠ []) :
    problem.compare oracle = .error (.problem fault) := by
  have hsolve : solve problem {} = .ok (.rejected fault) := solve_eq_of_fault hfault hrows
  simp only [compare, hsolve, crossCheck_eq_error hfault]
  rfl

theorem exists_comparison (h : problem.fault? = none) (hrows : problem.constraints ≠ [])
    (oracle : StandardForm α → Verdict α) :
    ∃ comparison, problem.compare oracle = .ok (some comparison) ∧
      comparison.report.status ≠ .invalid := by
  obtain ⟨outcome, hsolve, hroute, -⟩ := exists_solve_route h hrows {}
  obtain ⟨reference, hreference⟩ := exists_crossCheck h oracle
  refine ⟨⟨outcome.report, reference⟩, ?_, hroute.status_ne_invalid⟩
  simp only [compare, hsolve, hreference]
  rfl

end Problem

end Entries

/-- The entry fails because of the problem, with the given words. -/
def Fault.Refuses {β : Type} (outcome : Except Fault β) (message : String) : Prop :=
  ∃ fault, outcome = .error (.problem fault) ∧ fault.message = message

/-- The result of a refused problem: no pivots, no value and no solution. -/
def Result.refusal (message : String) : Result Float where
  history := []
  report :=
    { status := .invalid, objectiveValue := none, solution := none, alternativeOptima := false,
      iterations := 0, message }

/-- The document of a refused problem. -/
def Service.refusal (message : String) : Document.Value :=
  .object [("history", .list []),
    ("report", .object [("status", .string "invalid"), ("objective_value", .null),
      ("solution", .null), ("alternative_optima", .bool false), ("iterations", .int 0),
      ("message", .string message)])]

namespace Problem

/-- Every entry refuses the problem with the same words. -/
structure RefusedEverywhere (problem : Problem Float) (options : Options Float)
    (oracle : StandardForm Float → Verdict Float) (message : String) : Prop where
  validate : Fault.Refuses (Fault.ofProblem problem.validate) message
  tableau : Fault.Refuses (Fault.ofProblem problem.tableau) message
  crossCheck : Fault.Refuses (Fault.ofProblem (problem.crossCheck oracle)) message
  compare : Fault.Refuses (problem.compare oracle) message
  solve : ∃ answer, SimplexMethod.solve problem options = .ok answer ∧
    answer.result? = some (.refusal message)
  solveDocument : Service.solveDocument problem options = .ok (Service.refusal message)

/-- No entry fails or reports the problem as invalid. -/
structure AdmittedEverywhere (problem : Problem Float) (options : Options Float)
    (oracle : StandardForm Float → Verdict Float) : Prop where
  validate : problem.validate = .ok problem.dimension
  tableau : problem.tableau = .ok problem.start
  crossCheck : ∃ reference, problem.crossCheck oracle = .ok reference
  compare : ∃ comparison, problem.compare oracle = .ok (some comparison) ∧
    comparison.report.status ≠ .invalid
  solve : ∃ answer result, SimplexMethod.solve problem options = .ok answer ∧
    answer.result? = some result ∧ result.report.status ≠ .invalid
  solveDocument : ∃ document status, Service.solveDocument problem options = .ok document ∧
    (document.fieldD "report").field? "status" = some (.string status) ∧ status ≠ "invalid"

variable {problem : Problem Float} {options : Options Float}
  {oracle : StandardForm Float → Verdict Float}

theorem refusedEverywhere_of_fault {fault : ProblemFault} (hfault : problem.fault? = some fault)
    (hrows : problem.constraints ≠ []) :
    problem.RefusedEverywhere options oracle fault.message where
  validate := ⟨fault, congrArg Fault.ofProblem (validate_eq_error hfault), rfl⟩
  tableau := ⟨fault, congrArg Fault.ofProblem (tableau_eq_error hfault), rfl⟩
  crossCheck := ⟨fault, congrArg Fault.ofProblem (crossCheck_eq_error hfault), rfl⟩
  compare := ⟨fault, compare_eq_error hfault hrows, rfl⟩
  solve := ⟨_, solve_eq_of_fault hfault hrows, rfl⟩
  solveDocument := by
    rw [Service.solveDocument, solve_eq_of_fault hfault hrows]
    rfl

/-- The words of a refusal are those of the fault. -/
theorem RefusedEverywhere.exists_fault {message : String}
    (h : problem.RefusedEverywhere options oracle message) :
    ∃ fault, problem.fault? = some fault ∧ fault.message = message := by
  obtain ⟨fault, hvalidate, hmessage⟩ := h.validate
  refine ⟨fault, ?_, hmessage⟩
  cases hfault : problem.fault? with
  | none =>
    rw [validate_eq_ok hfault] at hvalidate
    exact absurd hvalidate nofun
  | some other =>
    rw [validate_eq_error hfault] at hvalidate
    exact congrArg some (Fault.problem.inj (Except.error.inj hvalidate))

theorem admittedEverywhere_of_fault?_eq_none (h : problem.fault? = none)
    (hrows : problem.constraints ≠ []) : problem.AdmittedEverywhere options oracle := by
  obtain ⟨outcome, hsolve, hroute, -⟩ := exists_solve_route h hrows options
  have hstatus : outcome.report.status ≠ .invalid := hroute.status_ne_invalid
  exact {
    validate := validate_eq_ok h
    tableau := tableau_eq_ok h
    crossCheck := exists_crossCheck h oracle
    compare := exists_comparison h hrows oracle
    solve := ⟨_, _, hsolve, rfl, hstatus⟩
    solveDocument := by
      refine ⟨Service.ofAnswer (.solved outcome), outcome.report.status.name, ?_, rfl,
        mt Status.name_eq_invalid_iff.mp hstatus⟩
      rw [Service.solveDocument, hsolve]
      rfl }

/-- All entries refuse the ill-formed problems and no others, each with the words for the first
fault. -/
theorem entries_refuse_alike (hcoefficients : problem.objective.coefficients ≠ [])
    (hrows : problem.constraints ≠ []) (options : Options Float)
    (oracle : StandardForm Float → Verdict Float) :
    (problem.IllFormed ↔ ∃ message, problem.RefusedFor message) ∧
      (∀ message, problem.RefusedFor message ↔
        problem.RefusedEverywhere options oracle message) ∧
      (¬ problem.IllFormed → problem.AdmittedEverywhere options oracle) := by
  refine ⟨illFormed_iff_exists_refusedFor hcoefficients, ?_, ?_⟩
  · intro message
    rw [← exists_fault?_iff hcoefficients]
    constructor
    · rintro ⟨fault, hfault, rfl⟩
      exact refusedEverywhere_of_fault hfault hrows
    · exact RefusedEverywhere.exists_fault
  · intro hgood
    exact admittedEverywhere_of_fault?_eq_none
      ((fault?_eq_none_iff_not_illFormed hcoefficients).mpr hgood) hrows

end Problem

/-- The second row has no name, too few coefficients and an infinite bound; the third has a NaN. -/
def Problem.faulty : Problem Float where
  objective := ⟨[1, 2], .minimise⟩
  constraints :=
    [{ coefficients := [1, 1], rhs := 4, relation := .atMost, name := "capacity" },
      { coefficients := [3], rhs := 1 / 0, relation := .equal },
      { coefficients := [0 / 0, 1], rhs := 2, relation := .atLeast, name := "demand" }]

theorem Problem.entries_refuse_alike_faulty :
    Problem.faulty.IllFormed ∧ Problem.faulty.RefusedEverywhere {} (fun _ => .undecided)
      "Constraint #2 has 1 coefficients, expected 2." := by
  obtain ⟨hill, hrefused, -⟩ :=
    @Problem.entries_refuse_alike .faulty (by simp [faulty]) (by simp [faulty]) {}
      fun _ => .undecided
  have hrow : Constraint.RefusedFor { coefficients := [3], rhs := (1 / 0 : Float), relation := .equal }
      2 1 "Constraint #2 has 1 coefficients, expected 2." :=
    .length (.number rfl) (by simp)
  have hmessage : Problem.faulty.RefusedFor "Constraint #2 has 1 coefficients, expected 2." := by
    refine @RefusedFor.row _ _ _ (Problem.faulty.constraints.take 1) _ _ _ ?_ rfl ?_ hrow
    · decide +kernel
    · intro other hother
      obtain rfl := List.mem_singleton.mp hother
      exact (@Constraint.fault?_eq_none_iff _ _ _ _ 0).mp (by decide +kernel)
  exact ⟨hill.mpr ⟨_, hmessage⟩, (hrefused _).mp hmessage⟩

end SimplexMethod
