import SimplexMethod.Proofs.Phases.Auxiliary

/-!
# Problems that a tolerance discerns

A tolerance discerns a problem if it takes no number for zero by mistake that may decide a solve:
neither a bound, nor an entry of a row in whatever basis the start tableau or the auxiliary tableau
is written, nor, scaled with the largest bound, the sum of the artificial columns there. The costs
are asked for separately: a cost that is passed over does not make a point infeasible.
-/

namespace SimplexMethod

theorem le_foldl_max (values : List ℚ) (first : ℚ) :
    first ≤ values.foldl max first ∧ ∀ v ∈ values, v ≤ values.foldl max first := by
  induction values generalizing first with
  | nil => simp
  | cons value values ih =>
    obtain ⟨hfirst, hvalues⟩ := ih (max first value)
    refine ⟨(le_max_left _ _).trans hfirst, ?_⟩
    intro v hv
    rcases List.mem_cons.mp hv with rfl | hold
    · exact (le_max_right _ _).trans hfirst
    · exact hvalues v hold

theorem Prepared.scale_eq (prepared : Prepared ℚ) :
    prepared.scale = (prepared.position.tableau.rows.map fun row => |rhs row|).foldl max 1 := by
  rw [scale, List.foldl_map]
  congr
  funext largest row
  rw [magnitude_eq_abs, max_def_lt]

namespace Problem

variable {problem : Problem ℚ}

/-- The largest magnitude among one and the bounds of the rows. -/
def scale (problem : Problem ℚ) : ℚ :=
  (problem.constraints.map fun row => |row.rhs|).foldl max 1

theorem one_le_scale (problem : Problem ℚ) : 1 ≤ problem.scale :=
  (le_foldl_max _ 1).1

/-- The preparation changes the signs of bounds only. -/
theorem scale_prepare (h : problem.fault? = none) {tolerance : ℚ}
    (hlacks : problem.start.lackingRows tolerance ≠ []) :
    (problem.start.prepare tolerance).scale = problem.scale := by
  have hrows : (problem.auxiliary tolerance).tableau.rows.map (fun row => |rhs row|)
      = problem.constraints.map fun row => |row.rhs| := by
    apply List.ext_getElem
    · simpa using length_rows_auxiliary problem tolerance
    · intro i hi _
      have hi' : i < problem.constraints.length := by
        rwa [List.length_map, length_rows_auxiliary] at hi
      rw [List.getElem_map, List.getElem_map, ← Tableau.line_of_lt, rhs_line_auxiliary hi',
        rhs_line_start problem hi', abs_mul, Position.abs_rowSign, one_mul]
  rw [Position.prepare_of_ne_nil (hasWidth_start h) hlacks, Prepared.scale_eq, scale, ← hrows]
  rfl

/-- The tolerance takes no number for zero by mistake that may decide whether a point is
feasible. -/
structure Discerned (problem : Problem ℚ) (tolerance : ℚ) : Prop where
  bounds : ∀ row ∈ problem.constraints, SimplexMethod.Discerned tolerance row.rhs
  first : (problem.auxiliary tolerance).tableau.RowsDiscerned tolerance
    (problem.dimension + problem.constraints.length
      + (problem.start.lackingRows tolerance).length)
  sum : ∀ q : Position ℚ, q.Restates (problem.auxiliary tolerance).tableau
      (problem.dimension + problem.constraints.length
        + (problem.start.lackingRows tolerance).length) →
    SimplexMethod.Discerned (tolerance * problem.scale) (rhs q.tableau.objective)
  second : problem.start.tableau.RowsDiscerned tolerance
    (problem.dimension + problem.constraints.length)

/-- The tolerance takes no cost for zero by mistake. -/
structure CostsDiscerned (problem : Problem ℚ) (tolerance : ℚ) : Prop where
  first : (problem.auxiliary tolerance).tableau.CostsDiscerned tolerance
    (problem.dimension + problem.constraints.length
      + (problem.start.lackingRows tolerance).length)
  second : problem.start.tableau.CostsDiscerned tolerance
    (problem.dimension + problem.constraints.length)

section Exact

variable {tolerance : ℚ} (htol : tolerance = 0) (problem : Problem ℚ)

include htol

theorem Discerned.of_eq_zero : problem.Discerned tolerance where
  bounds := fun _ _ => SimplexMethod.Discerned.of_eq_zero htol _
  first := .of_eq_zero htol _ _
  sum := fun _ _ => SimplexMethod.Discerned.of_eq_zero (by rw [htol, zero_mul]) _
  second := .of_eq_zero htol _ _

theorem CostsDiscerned.of_eq_zero : problem.CostsDiscerned tolerance :=
  ⟨.of_eq_zero htol _ _, .of_eq_zero htol _ _⟩

end Exact

end Problem

end SimplexMethod
