import SimplexMethod.Proofs.Solve.Invariants

/-!
# Every snapshot states the problem

Without a tolerance every snapshot states the same linear system. In the second phase it has the
solutions of the start tableau, also if rows were dropped, and on them its objective row is that of
the problem. In the first phase it has these solutions padded with zeros for the artificial columns,
and on all its solutions the objective row is the sum of the artificial columns.
-/

namespace SimplexMethod

namespace Problem

/-- The tableau has the solutions of the start tableau and, on them, its objective. -/
structure StatedBy (problem : Problem ℚ) (t : Tableau ℚ) : Prop where
  hasWidth : t.HasWidth (problem.dimension + problem.constraints.length + 1)
  solves_iff : ∀ v : List ℚ, v.length = problem.dimension + problem.constraints.length →
    (problem.start.tableau.Solves v ↔ t.Solves v)
  objective_eq : ∀ v : List ℚ, v.length = problem.dimension + problem.constraints.length →
    problem.start.tableau.Solves v →
      rowForm t.objective v - rhs t.objective = rowForm problem.start.tableau.objective v

/-- The tableau has the solutions of the start tableau, padded with zeros for the artificial columns
at its end, and its objective is the sum of the artificial columns. -/
structure StatedWith (problem : Problem ℚ) (artificial : List ℕ) (t : Tableau ℚ) : Prop where
  artificial_eq : artificial
    = List.range' (problem.dimension + problem.constraints.length) artificial.length
  hasWidth :
    t.HasWidth (problem.dimension + problem.constraints.length + artificial.length + 1)
  solves_iff : ∀ v : List ℚ, v.length = problem.dimension + problem.constraints.length →
    (problem.start.tableau.Solves v ↔ t.Solves (v ++ List.replicate artificial.length 0))
  objective_eq : ∀ w : List ℚ,
    w.length = problem.dimension + problem.constraints.length + artificial.length → t.Solves w →
      rowForm t.objective w - rhs t.objective = (artificial.map (w.getD · 0)).sum

end Problem

theorem sum_map_range' (f : ℕ → ℚ) (first count : ℕ) :
    ((List.range' first count).map f).sum = ∑ k ∈ Finset.range count, f (first + k) := by
  induction count with
  | zero => rfl
  | succ count ih =>
    rw [List.range'_1_concat, List.map_append, List.sum_append, ih, Finset.sum_range_succ]
    simp

namespace Problem

variable {problem : Problem ℚ} {options : Options ℚ}

/-- What agrees with the start tableau states the problem. -/
theorem StatedBy.of_agrees {t : Tableau ℚ}
    (hw : t.HasWidth (problem.dimension + problem.constraints.length + 1))
    (hagrees : problem.start.tableau.Agrees t) : problem.StatedBy t where
  hasWidth := hw
  solves_iff := by
    intro v _
    rw [Tableau.solves_iff_solvedBy, Tableau.solves_iff_solvedBy, hagrees.solvedBy_iff]
  objective_eq := by
    intro v _ hsolves
    have hgap := hagrees.gap_eq _ ((Tableau.solves_iff_solvedBy _ v).mp hsolves)
    rw [gap, gap, rhs_objective_start, sub_zero] at hgap
    rw [rowForm_eq_formAt, rowForm_eq_formAt, hgap]

/-- What agrees with the auxiliary tableau states the problem with its artificial columns. -/
theorem StatedWith.of_agrees (h : problem.fault? = none) {tolerance : ℚ} {t : Tableau ℚ}
    (hw : t.HasWidth (problem.dimension + problem.constraints.length
      + (problem.start.lackingRows tolerance).length + 1))
    (hagrees : (problem.auxiliary tolerance).tableau.Agrees t) :
    problem.StatedWith (List.range' (problem.dimension + problem.constraints.length)
      (problem.start.lackingRows tolerance).length) t where
  artificial_eq := by rw [List.length_range']
  hasWidth := by rwa [List.length_range']
  solves_iff := by
    intro v hv
    have hpast : ∀ k < (problem.start.lackingRows tolerance).length,
        v.getD (problem.dimension + problem.constraints.length + k) 0 = 0 :=
      fun k _ => List.getD_eq_default _ _ (hv ▸ Nat.le_add_right _ k)
    rw [Tableau.solves_iff_solvedBy, Tableau.solves_iff_solvedBy]
    simp only [getD_append_zeros]
    rw [← (extends_auxiliary h).solvedBy_iff _ hpast, hagrees.solvedBy_iff]
  objective_eq := by
    intro w _ hsolves
    have hsolved := (hagrees.solvedBy_iff _).mpr ((Tableau.solves_iff_solvedBy t w).mp hsolves)
    calc
      rowForm t.objective w - rhs t.objective
          = gap t.objective (w.getD · 0) := by rw [rowForm_eq_formAt, gap]
      _ = gap (problem.auxiliary tolerance).tableau.objective (w.getD · 0) :=
        (hagrees.gap_eq _ hsolved).symm
      _ = ∑ k ∈ Finset.range (problem.start.lackingRows tolerance).length,
            w.getD (problem.dimension + problem.constraints.length + k) 0 :=
        (extends_auxiliary h).gap_objective _ hsolved
      _ = ((List.range' (problem.dimension + problem.constraints.length)
            (problem.start.lackingRows tolerance).length).map (w.getD · 0)).sum :=
        (sum_map_range' (w.getD · 0) _ _).symm

/-- Without a tolerance, what a phase visits states the problem. -/
theorem Starts.stated {phase : Int} {start q : Position ℚ}
    (hs : problem.Starts options phase start) (h : problem.fault? = none)
    (htol : options.tolerance = 0) (hv : start.Visits options problem.idleColumns q) :
    phase = 1 ∧ problem.StatedWith (problem.start.prepare options.tolerance).artificial q.tableau ∨
      phase = 2 ∧ problem.StatedBy q.tableau := by
  cases hs with
  | first hlacks =>
    rw [Position.prepare_of_ne_nil (hasWidth_start h) hlacks] at hv ⊢
    obtain ⟨hregular, hagrees⟩ := (regular_auxiliary h).of_visits htol.ge hv
    exact .inl ⟨rfl, .of_agrees h hregular.hasWidth hagrees⟩
  | second hsearch hentry =>
    obtain ⟨hready, hstart⟩ := ready_of_feasible h htol hsearch hentry
    obtain ⟨hregular, hagrees⟩ := hready.toRegular.of_visits htol.ge hv
    exact .inr ⟨rfl, .of_agrees hregular.hasWidth (hstart.trans hagrees)⟩

end Problem

/-- Without a tolerance every snapshot states the problem, with the artificial columns in the first
phase and without them in the second. -/
theorem stated_of_mem_history {problem : Problem ℚ} {options : Options ℚ}
    (h : problem.fault? = none) (hrows : problem.constraints ≠ [])
    (htwo : options.twoPhase = true) (htol : options.tolerance = 0) :
    ∃ outcome first, solve problem options = .ok (.solved outcome) ∧
      outcome.first = some first ∧
      ∀ snapshot ∈ outcome.history,
        snapshot.phase = 1 ∧
            problem.StatedWith first.prepared.artificial snapshot.position.tableau ∨
          snapshot.phase = 2 ∧ problem.StatedBy snapshot.position.tableau := by
  obtain ⟨outcome, hsolve, hcourse⟩ := exists_solve h hrows htwo
  obtain ⟨first, hfirst, hsearch⟩ := hcourse.exists_first
  refine ⟨outcome, first, hsolve, hfirst, ?_⟩
  intro snapshot hmem
  obtain ⟨start, hstarts, hvisits⟩ := hcourse.exists_visits h hmem
  rw [hsearch.prepared_eq]
  exact hstarts.stated h htol hvisits

theorem stated_retold :
    ∃ outcome, solve .retold { tolerance := 0 } = .ok (.solved outcome) ∧
      outcome.history.map (·.phase) = [1, 1, 2] ∧
      ∀ snapshot ∈ outcome.history,
        snapshot.phase = 1 ∧ Problem.retold.StatedWith [5, 6, 7] snapshot.position.tableau ∨
          snapshot.phase = 2 ∧ Problem.retold.StatedBy snapshot.position.tableau := by
  obtain ⟨outcome, first, hsolve, hfirst, hhistory⟩ :=
    @stated_of_mem_history .retold { tolerance := 0 } (by decide +kernel)
      (by simp [Problem.retold]) rfl rfl
  have hphases : outcome.history.map (·.phase) = [1, 1, 2] :=
    eq_of_solve hsolve (·.history.map (·.phase)) (by decide +kernel)
  have hartificial : outcome.first.map (·.prepared.artificial) = some [5, 6, 7] :=
    eq_of_solve hsolve (·.first.map (·.prepared.artificial)) (by decide +kernel)
  rw [hfirst, Option.map_some, Option.some.injEq] at hartificial
  exact ⟨outcome, hsolve, hphases, hartificial ▸ hhistory⟩

end SimplexMethod
