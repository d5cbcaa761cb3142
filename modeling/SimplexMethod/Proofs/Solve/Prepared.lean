import SimplexMethod.Proofs.Solve.Systems

/-!
# What the preparation of a problem gives

A row is given an artificial column if it is an equality or its bound is on the wrong side of zero
by more than the tolerance. With its signs changed and these columns appended the start position of
a problem is canonical, and it states the problem.
-/

namespace SimplexMethod

/-- The row has no slack to start with: it is an equality, or its slack would be below zero by more
than the tolerance. -/
def Constraint.Lacks (row : Constraint ℚ) (tolerance : ℚ) : Prop :=
  match row.relation with
  | .equal => True
  | .atLeast => tolerance < row.rhs
  | .atMost => row.rhs < -tolerance

theorem Constraint.lacks_rowStart_iff (row : Constraint ℚ) {tolerance : ℚ} (htol : 0 ≤ tolerance) :
    (rowStart tolerance row.relation.slack row.rhs).lacks = true ↔ row.Lacks tolerance := by
  unfold Lacks
  cases row.relation with
  | equal => simp [Relation.slack, lacks_rowStart_zero]
  | atLeast =>
    have hslack : ¬ (0 : ℚ) < -1 := by norm_num
    by_cases hle : row.rhs ≤ tolerance
    · simp [rowStart, Relation.slack, RowStart.lacks, hslack, hle]
    · have hnonneg : ¬ row.rhs < 0 := by linarith
      simp [rowStart, Relation.slack, RowStart.lacks, hslack, hle, hnonneg, not_le.mp hle]
  | atMost =>
    have hslack : ¬ (1 : ℚ) < 0 := by norm_num
    by_cases hle : -tolerance ≤ row.rhs
    · simp [rowStart, Relation.slack, RowStart.lacks, hle]
    · have hneg : row.rhs < 0 := by linarith
      simp [rowStart, Relation.slack, RowStart.lacks, hslack, hle, hneg, not_le.mp hle]

namespace Problem

variable {problem : Problem ℚ} {tolerance : ℚ}

/-- The prepared position of a problem is canonical with right-hand sides that are negative by no
more than the tolerance, its artificial columns follow the others in the order of the rows that lack
a start, it has the solutions of the start tableau, and its objective is that of the start tableau
or, with artificial columns, their sum. -/
structure PreparedBy (problem : Problem ℚ) (tolerance : ℚ) (prepared : Prepared ℚ) : Prop where
  hasWidth : prepared.position.tableau.HasWidth
    (problem.dimension + problem.constraints.length + prepared.artificial.length + 1)
  length_rows : prepared.position.tableau.rows.length = problem.constraints.length
  canonical : prepared.position.Canonical
  neg_tolerance_le_rhs : ∀ row ∈ prepared.position.tableau.rows, -tolerance ≤ rhs row
  rhs_nonneg : ∀ i ∈ prepared.lacking, 0 ≤ rhs (prepared.position.tableau.line i)
  mem_lacking : ∀ i, i ∈ prepared.lacking ↔
    ∃ hi : i < problem.constraints.length, problem.constraints[i].Lacks tolerance
  increasing : prepared.lacking.Pairwise (· < ·)
  artificial_eq : prepared.artificial
    = List.range' (problem.dimension + problem.constraints.length) prepared.lacking.length
  basis_artificial : ∀ k (hk : k < prepared.lacking.length),
    prepared.position.basis.getD prepared.lacking[k] 0
      = problem.dimension + problem.constraints.length + k
  basis_slack : ∀ i < problem.constraints.length, i ∉ prepared.lacking →
    prepared.position.basis.getD i 0 = problem.dimension + i
  solves_iff : ∀ v : List ℚ, v.length = problem.dimension + problem.constraints.length →
    (problem.start.tableau.Solves v ↔ prepared.position.tableau.Solves
      (v ++ List.replicate prepared.artificial.length 0))
  objective_eq : prepared.artificial = [] →
    prepared.position.tableau.objective = problem.start.tableau.objective
  objective_eq_sum : prepared.artificial ≠ [] → ∀ w : List ℚ,
    w.length = problem.dimension + problem.constraints.length + prepared.artificial.length →
      prepared.position.tableau.Solves w →
        rowForm prepared.position.tableau.objective w - rhs prepared.position.tableau.objective
          = (prepared.artificial.map (w.getD · 0)).sum

section Fields

variable (h : problem.fault? = none) (htol : 0 ≤ tolerance)

include h htol

theorem mem_lackingRows_iff_lacks {i : ℕ} : i ∈ problem.start.lackingRows tolerance ↔
    ∃ hi : i < problem.constraints.length, problem.constraints[i].Lacks tolerance := by
  constructor
  · intro hmem
    have hi := lt_of_mem_lackingRows hmem
    exact ⟨hi, (Constraint.lacks_rowStart_iff _ htol).mp
      ((mem_lackingRows_start h tolerance hi).mp hmem)⟩
  · rintro ⟨hi, hlacks⟩
    exact (mem_lackingRows_start h tolerance hi).mpr
      ((Constraint.lacks_rowStart_iff _ htol).mpr hlacks)

omit h htol in
theorem pairwise_lackingRows (problem : Problem ℚ) (tolerance : ℚ) :
    (problem.start.lackingRows tolerance).Pairwise (· < ·) := by
  rw [Position.lackingRows_eq_filter]
  exact List.pairwise_lt_range.filter _

theorem neg_tolerance_le_rhs {t : Tableau ℚ} (hlength : t.rows.length = problem.constraints.length)
    (hrhs : ∀ i < problem.constraints.length,
      rhs (t.line i) = problem.start.rowSign tolerance i * rhs (problem.start.tableau.line i)) :
    ∀ row ∈ t.rows, -tolerance ≤ rhs row := by
  intro row hr
  obtain ⟨i, hi, rfl⟩ := Tableau.mem_rows_iff.mp hr
  rw [hlength] at hi
  rw [hrhs i hi]
  exact (rowSign_mul_rhs h htol hi).1

/-- Where no row lacks a start, only signs change. -/
theorem preparedBy_signed (hnone : problem.start.lackingRows tolerance = []) :
    problem.PreparedBy tolerance (problem.start.prepare tolerance) := by
  have hlen := length_basis_eq_rows problem
  have hlength : (problem.start.signed tolerance).rows.length = problem.constraints.length := by
    simp
  have hstated := StatedBy.of_agrees (hasWidth_signed_start h tolerance)
    (Position.agrees_signed hlen)
  rw [Position.prepare_of_eq_nil hnone]
  exact
    { hasWidth := hasWidth_signed_start h tolerance
      length_rows := hlength
      canonical := canonical_signed h hnone
      neg_tolerance_le_rhs := neg_tolerance_le_rhs h htol hlength fun i hi =>
        Position.rhs_line_signed hlen (by simpa using hi)
      rhs_nonneg := fun _ hi => absurd hi List.not_mem_nil
      mem_lacking := fun _ => by rw [← mem_lackingRows_iff_lacks h htol, hnone]
      increasing := .nil
      artificial_eq := rfl
      basis_artificial := fun _ hk => absurd hk (Nat.not_lt_zero _)
      basis_slack := by
        intro i hi _
        have hbasis : i < problem.start.basis.length := by simpa using hi
        rw [List.getD_eq_getElem _ _ hbasis, basis_start problem hbasis]
      solves_iff := by
        intro v hv
        rw [List.length_nil, List.replicate_zero, List.append_nil]
        exact hstated.solves_iff v hv
      objective_eq := fun _ => Position.objective_signed hlen
      objective_eq_sum := fun hne => absurd rfl hne }

/-- Where rows lack a start, they are given artificial columns. -/
theorem preparedBy_auxiliary (hlacks : problem.start.lackingRows tolerance ≠ []) :
    problem.PreparedBy tolerance (problem.start.prepare tolerance) := by
  have hbasis := length_basis_auxiliary problem tolerance
  have hstated := StatedWith.of_agrees h (hasWidth_auxiliary h)
    (Tableau.Agrees.refl (problem.auxiliary tolerance).tableau)
  have hprepare : problem.start.prepare tolerance
      = ⟨problem.auxiliary tolerance, problem.start.lackingRows tolerance,
          List.range' (problem.dimension + problem.constraints.length)
            (problem.start.lackingRows tolerance).length⟩ :=
    Position.prepare_of_ne_nil (hasWidth_start h) hlacks
  rw [hprepare]
  exact
    { hasWidth := hstated.hasWidth
      length_rows := length_rows_auxiliary problem tolerance
      canonical := canonical_auxiliary h
      neg_tolerance_le_rhs := neg_tolerance_le_rhs h htol (length_rows_auxiliary problem tolerance)
        fun _ hi => rhs_line_auxiliary hi
      rhs_nonneg := by
        intro i hi
        have hrow := lt_of_mem_lackingRows hi
        rw [rhs_line_auxiliary hrow]
        exact (rowSign_mul_rhs h htol hrow).2 hi
      mem_lacking := fun _ => mem_lackingRows_iff_lacks h htol
      increasing := pairwise_lackingRows problem tolerance
      artificial_eq := rfl
      basis_artificial := by
        intro k hk
        have hrow : (problem.start.lackingRows tolerance)[k]
            < (problem.auxiliary tolerance).basis.length :=
          hbasis ▸ lt_of_mem_lackingRows (List.getElem_mem hk)
        rw [List.getD_eq_getElem _ _ hrow]
        rcases getElem_basis_auxiliary hrow with ⟨-, l, hl, heq, hcolumn⟩ | ⟨hnot, -⟩
        · have hlk : l = k :=
            (problem.start.nodup_lackingRows tolerance).getElem_inj_iff.mp heq
          rw [hcolumn, hlk]
        · exact absurd (List.getElem_mem hk) hnot
      basis_slack := by
        intro i hi hnot
        have hrow : i < (problem.auxiliary tolerance).basis.length := hbasis ▸ hi
        rw [List.getD_eq_getElem _ _ hrow]
        rcases getElem_basis_auxiliary hrow with ⟨hmem, -⟩ | ⟨-, hcolumn⟩
        · exact absurd hmem hnot
        · exact hcolumn
      solves_iff := hstated.solves_iff
      objective_eq := by
        intro hnil
        rw [List.range'_eq_nil_iff, List.length_eq_zero_iff] at hnil
        exact absurd hnil hlacks
      objective_eq_sum := fun _ => hstated.objective_eq }

end Fields

end Problem

/-- The tableau of an accepted problem can be prepared under every tolerance that is not negative,
and what this gives states the problem. -/
theorem exists_preparedBy {problem : Problem ℚ} {tolerance : ℚ} (h : problem.fault? = none)
    (htol : 0 ≤ tolerance) :
    problem.tableau = .ok problem.start ∧
      ∃ prepared, problem.start.prepareAt tolerance = .ok prepared ∧
        problem.PreparedBy tolerance prepared := by
  refine ⟨?_, problem.start.prepare tolerance, ?_, ?_⟩
  · rw [Problem.tableau, Problem.validate_eq_ok h]
    rfl
  · exact (Problem.framed_start h).prepareAt_eq_ok tolerance
  · by_cases hlacks : problem.start.lackingRows tolerance = []
    · exact Problem.preparedBy_signed h htol hlacks
    · exact Problem.preparedBy_auxiliary h htol hlacks

/-- Rows of every relation with bounds on both sides of zero, within and beyond a tenth of it. -/
def Problem.banded : Problem ℚ where
  objective := { coefficients := [1, 2], sense := .maximise }
  constraints :=
    [{ coefficients := [1, 1], rhs := 4, relation := .atMost },
      { coefficients := [-1, 0], rhs := -1, relation := .atMost },
      { coefficients := [1, 0], rhs := 1 / 20, relation := .atLeast },
      { coefficients := [0, 1], rhs := 2, relation := .atLeast },
      { coefficients := [-1, -1], rhs := -3, relation := .equal },
      { coefficients := [0, -1], rhs := -1 / 20, relation := .atMost }]

theorem preparedBy_banded :
    ∃ prepared, Problem.banded.start.prepareAt (1 / 10) = .ok prepared ∧
      prepared.lacking = [1, 3, 4] ∧ prepared.artificial = [8, 9, 10] ∧
      Problem.banded.PreparedBy (1 / 10) prepared := by
  obtain ⟨-, prepared, hprepared, hprepares⟩ :=
    @exists_preparedBy .banded (1 / 10) (by decide +kernel) (by norm_num)
  have hread : (Problem.banded.start.prepareAt (1 / 10)).toOption.map
      (fun prepared => (prepared.lacking, prepared.artificial)) = some ([1, 3, 4], [8, 9, 10]) := by
    decide +kernel
  rw [hprepared] at hread
  obtain ⟨hlacking, hartificial⟩ := Prod.mk.inj (Option.some.inj hread)
  exact ⟨prepared, hprepared, hlacking, hartificial, hprepares⟩

end SimplexMethod
