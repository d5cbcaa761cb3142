import SimplexMethod.Proofs.Phases.Discerned
import SimplexMethod.Proofs.Phases.Installation
import SimplexMethod.Proofs.Phases.Removal
import SimplexMethod.Proofs.Pivoting.Endings
import SimplexMethod.Proofs.Solve.Course

/-!
# The first phase

The position that enters the second phase is always regular, and it agrees with the start tableau of
the problem if no row was dropped. If the tolerance discerns the problem, the first phase ends with
the least sum of the artificial columns. If the sum is positive the problem has no feasible point.
If it is zero, the position that enters the second phase is ready and agrees with the start tableau.
The sum is never unbounded. Without a tolerance every problem is discerned.
-/

namespace SimplexMethod

namespace Clearing

variable {t : Tableau ℚ} {width count : ℕ} {barred : List ℕ} {state : Reduced ℚ}
  {costs : List ℚ} (h : Clearing t width count barred t.rows.length state)
  (hlen : costs.length = width + 1)

include h hlen

/-- What is left of a tableau is regular under any costs. -/
theorem regular_install_left :
    Position.Regular ⟨(state.left width).install costs, (state.left width).basis⟩ width
      barred where
  hasWidth := (h.framed_left.install hlen).hasWidth
  canonical := Position.canonical_install h.basicInRows_left h.framed_left.hasWidth hlen
  free := h.free_left

/-- What is left states the equations of the full tableau and the costs, if the dropped rows say
nothing. -/
theorem agrees_install_left
    (hdropped : ∀ x, ∀ i ∈ state.dropped,
      gap (state.position.tableau.line i) (cutAt width x) = 0)
    {u : Tableau ℚ} (hobjective : u.objective = costs)
    (hsolved : ∀ x, u.SolvedBy x ↔ t.SolvedBy (cutAt width x)) :
    u.Agrees ((state.left width).install costs) where
  solvedBy_iff := by
    intro x
    rw [Position.solvedBy_install_iff, h.solvedBy_left_iff (hdropped x), hsolved]
  gap_eq := by
    intro x hx
    have hleft : (state.left width).tableau.SolvedBy x :=
      (h.solvedBy_left_iff (hdropped x)).mpr ((hsolved x).mp hx)
    rw [(Position.installing_all h.basicInRows_left.unitInRows h.framed_left.hasWidth hlen).gap_eq
      x hleft, hobjective]

omit h in
/-- What is left of a tableau with non-negative right-hand sides is ready under any costs. -/
theorem Still.ready_install_left {state : Reduced ℚ}
    (h : Still t width count barred t.rows.length state) (hrhs : ∀ row ∈ t.rows, 0 ≤ rhs row) :
    Position.Ready ⟨(state.left width).install costs, (state.left width).basis⟩ width barred where
  toRegular := h.toClearing.regular_install_left hlen
  rhs_nonneg := by
    rw [Position.rows_install]
    exact h.rhs_left_nonneg hrhs

end Clearing

theorem solvedBy_congr_cutAt {t : Tableau ℚ} {width : ℕ} (h : t.HasWidth (width + 1))
    (x : ℕ → ℚ) : t.SolvedBy (cutAt width x) ↔ t.SolvedBy x :=
  Tableau.SolvedBy.congr h fun _ hj => if_pos hj

namespace Problem

variable {problem : Problem ℚ} {options : Options ℚ}

/-- The state of the removal at the end of the first phase. -/
def cleared (problem : Problem ℚ) (options : Options ℚ) : Reduced ℚ :=
  (problem.start.firstRun options problem.idleColumns).last.freeAll
    (List.range' (problem.dimension + problem.constraints.length)
      (problem.start.lackingRows options.tolerance).length)
    (problem.dimension + problem.constraints.length) options.tolerance

/-- The first phase of a solve as a run from the auxiliary position. -/
theorem firstRun_eq (h : problem.fault? = none)
    (hlacks : problem.start.lackingRows options.tolerance ≠ []) (barred : List ℕ) :
    problem.start.firstRun options barred
      = (problem.auxiliary options.tolerance).run options barred options.maxIterations := by
  rw [Position.firstRun, Position.prepare_of_ne_nil (hasWidth_start h) hlacks]
  rfl

/-- What the first phase leaves is what is left when its last position has been cleared. -/
theorem firstReduced_eq (h : problem.fault? = none)
    (hlacks : problem.start.lackingRows options.tolerance ≠ []) :
    problem.start.firstReduced options problem.idleColumns
        (problem.dimension + problem.constraints.length)
      = ⟨(problem.cleared options).left (problem.dimension + problem.constraints.length),
          (problem.cleared options).dropped⟩ := by
  rw [Position.firstReduced, Position.prepare_of_ne_nil (hasWidth_start h) hlacks,
    Position.removeArtificial_eq]
  rfl

section FirstRun

variable (h : problem.fault? = none) (htol : 0 ≤ options.tolerance)
  (hlacks : problem.start.lackingRows options.tolerance ≠ [])

include h htol hlacks

theorem regular_last_firstRun : (problem.start.firstRun options problem.idleColumns).last.Regular
    (problem.dimension + problem.constraints.length
      + (problem.start.lackingRows options.tolerance).length) problem.idleColumns := by
  rw [firstRun_eq h hlacks]
  exact (regular_auxiliary h).regular_last_run htol _

theorem vanishes_last_firstRun :
    (problem.start.firstRun options problem.idleColumns).last.tableau.Vanishes
      problem.idleColumns := by
  rw [firstRun_eq h hlacks]
  exact (regular_auxiliary h).vanishes_of_visits htol
    (fun _ hj => Nat.lt_add_right _ (lt_of_mem_idleColumns hj)) (vanishes_auxiliary h)
    ((regular_auxiliary h).framed.visits_last_run _ _ _)

/-- On points without artificial part the last tableau of the first phase states what the start
tableau states. -/
theorem solvedBy_start_iff (x : ℕ → ℚ) :
    problem.start.tableau.SolvedBy x ↔
      (problem.start.firstRun options problem.idleColumns).last.tableau.SolvedBy
        (cutAt (problem.dimension + problem.constraints.length) x) := by
  have hzero : ∀ k < (problem.start.lackingRows options.tolerance).length,
      cutAt (problem.dimension + problem.constraints.length) x
        (problem.dimension + problem.constraints.length + k) = 0 :=
    fun k _ => if_neg (by omega)
  rw [firstRun_eq h hlacks,
    ← ((regular_auxiliary h).agrees_last_run htol options.maxIterations).solvedBy_iff,
    (extends_auxiliary h).solvedBy_iff _ hzero, solvedBy_congr_cutAt (hasWidth_start h)]

theorem clearing_firstRun :
    Clearing (problem.start.firstRun options problem.idleColumns).last.tableau
      (problem.dimension + problem.constraints.length)
      (problem.start.lackingRows options.tolerance).length problem.idleColumns
      (problem.start.firstRun options problem.idleColumns).last.tableau.rows.length
      (problem.cleared options) :=
  clearing_all (regular_last_firstRun h htol hlacks) (vanishes_last_firstRun h htol hlacks) htol

/-- The position after the first phase is regular, and it agrees with the start tableau if no row
was dropped. -/
theorem regular_install_firstReduced {reduced : Reduced ℚ}
    (hp : problem.start.firstReduced options problem.idleColumns
      (problem.dimension + problem.constraints.length) = reduced) :
    Position.Regular
        ⟨reduced.position.install problem.start.tableau.objective, reduced.position.basis⟩
        (problem.dimension + problem.constraints.length) problem.idleColumns ∧
      (reduced.dropped = [] →
        problem.start.tableau.Agrees
          (reduced.position.install problem.start.tableau.objective)) := by
  have hclearing := clearing_firstRun h htol hlacks
  have hlen := (hasWidth_start h).width_eq
  rw [firstReduced_eq h hlacks] at hp
  subst hp
  refine ⟨hclearing.regular_install_left hlen, ?_⟩
  intro hnone
  apply hclearing.agrees_install_left hlen _ rfl (solvedBy_start_iff h htol hlacks)
  intro x i hi
  exact absurd (hnone ▸ hi) List.not_mem_nil

/-- The last position of the first phase states the auxiliary problem. -/
theorem restates_last_firstRun :
    (problem.start.firstRun options problem.idleColumns).last.Restates
      (problem.auxiliary options.tolerance).tableau
      (problem.dimension + problem.constraints.length
        + (problem.start.lackingRows options.tolerance).length) := by
  have hlast := regular_last_firstRun h htol hlacks
  rw [firstRun_eq h hlacks] at hlast ⊢
  exact hlast.restates ((regular_auxiliary h).agrees_last_run htol _)

/-- A problem of which the first phase leaves a positive sum has no feasible point: with its slack
and no artificial part such a point would solve the auxiliary tableau with a sum of zero. -/
theorem not_feasible_of_sumLeft (hcosts : problem.CostsDiscerned options.tolerance)
    (hend : (problem.start.firstRun options problem.idleColumns).ending = .optimal)
    (hsum : problem.start.SumLeft options problem.idleColumns) (x : List ℚ) :
    ¬ problem.Feasible x := by
  intro hfeasible
  have hregular : (problem.auxiliary options.tolerance).Regular _ problem.idleColumns :=
    regular_auxiliary h
  have hpositive : 0 < -rhs (problem.start.firstRun options
      problem.idleColumns).last.tableau.objective := by
    rw [Position.SumLeft, scale_prepare h hlacks] at hsum
    exact (mul_nonneg htol (zero_le_one.trans problem.one_le_scale)).trans_lt hsum
  rw [firstRun_eq h hlacks] at hend hpositive
  have hzero : ∀ k < (problem.start.lackingRows options.tolerance).length,
      problem.withSlack x (problem.dimension + problem.constraints.length + k) = 0 :=
    fun k _ => withSlack_of_le (Nat.le_add_right _ k) x
  have hsolved : (problem.auxiliary options.tolerance).tableau.SolvedBy (problem.withSlack x) :=
    ((extends_auxiliary h).solvedBy_iff _ hzero).mpr (solvedBy_withSlack h hfeasible)
  have hle := hregular.gap_last_point_le htol hcosts.first hend hsolved
    (fun j _ => withSlack_nonneg hfeasible j) (fun j hj => withSlack_of_idle hj x)
  have hgap : gap (problem.auxiliary options.tolerance).tableau.objective
      (problem.withSlack x) = 0 := by
    rw [(extends_auxiliary h).gap_objective _ hsolved]
    exact Finset.sum_eq_zero fun k hk => hzero k (Finset.mem_range.mp hk)
  rw [hregular.gap_last_point htol options.maxIterations, hgap] at hle
  exact absurd hpositive (not_lt.mpr hle)

variable (hd : problem.Discerned options.tolerance)

include hd

/-- The sum of the artificial columns is bounded below. -/
theorem ending_firstRun_ne_unbounded (column : ℕ) :
    (problem.start.firstRun options problem.idleColumns).ending ≠ .unbounded column := by
  rw [firstRun_eq h hlacks]
  intro hend
  obtain ⟨x, hs, hx, hlt⟩ :=
    (ready_auxiliary h htol hd.bounds).exists_gap_lt htol hd.first hend 0
  rw [(extends_auxiliary h).gap_objective x hs] at hlt
  exact absurd (Finset.sum_nonneg fun k _ => hx _) (not_le.mpr hlt)

theorem ready_last_firstRun : (problem.start.firstRun options problem.idleColumns).last.Ready
    (problem.dimension + problem.constraints.length
      + (problem.start.lackingRows options.tolerance).length) problem.idleColumns := by
  rw [firstRun_eq h hlacks]
  exact (ready_auxiliary h htol hd.bounds).last_run htol hd.first _

/-- Where no sum is left, the rows with artificial basic columns have right-hand side zero. -/
theorem rhs_line_firstRun_eq_zero
    (hsum : ¬ problem.start.SumLeft options problem.idleColumns) :
    ∀ i < (problem.start.firstRun options problem.idleColumns).last.tableau.rows.length,
      problem.dimension + problem.constraints.length
        ≤ (problem.start.firstRun options problem.idleColumns).last.basis.getD i 0 →
      rhs ((problem.start.firstRun options problem.idleColumns).last.tableau.line i) = 0 := by
  have hlast := ready_last_firstRun h htol hlacks hd
  have hrestates := restates_last_firstRun h htol hlacks
  have hterms : ∀ k ∈ Finset.range (problem.start.lackingRows options.tolerance).length,
      0 ≤ (problem.start.firstRun options problem.idleColumns).last.point
        (problem.dimension + problem.constraints.length + k) :=
    fun k _ => hlast.point_nonneg _
  have hzero : ∑ k ∈ Finset.range (problem.start.lackingRows options.tolerance).length,
      (problem.start.firstRun options problem.idleColumns).last.point
        (problem.dimension + problem.constraints.length + k) = 0 := by
    apply le_antisymm _ (Finset.sum_nonneg hterms)
    rw [Position.SumLeft, scale_prepare h hlacks, not_lt] at hsum
    rw [← hrestates.neg_rhs_eq_sum (extends_auxiliary h)]
    exact (hd.sum _ hrestates).neg.nonpos_of_le hsum
  intro i hi hbasic
  have hib : i < (problem.start.firstRun options problem.idleColumns).last.basis.length :=
    hlast.canonical.length_eq ▸ hi
  rw [List.getD_eq_getElem _ _ hib] at hbasic
  obtain ⟨k, hk⟩ := Nat.exists_eq_add_of_le hbasic
  have hlt := hlast.canonical.lt_of_mem hlast.hasWidth (List.getElem_mem hib)
  rw [← Position.point_getElem hlast.canonical.nodup hib, hk]
  exact (Finset.sum_eq_zero_iff_of_nonneg hterms).mp hzero k (Finset.mem_range.mpr (by omega))

theorem still_firstRun (hsum : ¬ problem.start.SumLeft options problem.idleColumns) :
    Clearing.Still (problem.start.firstRun options problem.idleColumns).last.tableau
      (problem.dimension + problem.constraints.length)
      (problem.start.lackingRows options.tolerance).length problem.idleColumns
      (problem.start.firstRun options problem.idleColumns).last.tableau.rows.length
      (problem.cleared options) :=
  still_all (regular_last_firstRun h htol hlacks) (vanishes_last_firstRun h htol hlacks) htol
    (hd.first.of_agrees (restates_last_firstRun h htol hlacks).agrees)
    (rhs_line_firstRun_eq_zero h htol hlacks hd hsum)

/-- The position after the first phase is ready and agrees with the start tableau. -/
theorem ready_install_firstReduced
    (hsum : ¬ problem.start.SumLeft options problem.idleColumns) {p : Position ℚ}
    (hp : (problem.start.firstReduced options problem.idleColumns
      (problem.dimension + problem.constraints.length)).position = p) :
    Position.Ready ⟨p.install problem.start.tableau.objective, p.basis⟩
        (problem.dimension + problem.constraints.length) problem.idleColumns ∧
      problem.start.tableau.Agrees (p.install problem.start.tableau.objective) := by
  have hstill := still_firstRun h htol hlacks hd hsum
  have hlen := (hasWidth_start h).width_eq
  rw [firstReduced_eq h hlacks] at hp
  subst hp
  constructor
  · exact hstill.ready_install_left hlen (ready_last_firstRun h htol hlacks hd).rhs_nonneg
  · exact hstill.agrees_install_left hlen hstill.gap_dropped_eq_zero rfl
      (solvedBy_start_iff h htol hlacks)

end FirstRun

section Entry

variable {phase : FirstPhase ℚ} (h : problem.fault? = none)

section Discerned

variable (htol : 0 ≤ options.tolerance)
  (hs : problem.start.Search options problem.idleColumns
    (problem.dimension + problem.constraints.length) phase)

include h htol hs

/-- Whatever is tolerated, the position that enters the second phase is regular, and it agrees with
the start tableau if no row was dropped. -/
theorem regular_of_feasible {reduced : Reduced ℚ} (hentry : phase.entry = .feasible reduced) :
    reduced.position.Regular (problem.dimension + problem.constraints.length)
        problem.idleColumns ∧
      (reduced.dropped = [] → problem.start.tableau.Agrees reduced.position.tableau) := by
  rcases hs.of_feasible hentry with ⟨hready, rfl⟩ | ⟨hlacks, -, -, rfl⟩
  · rw [Position.prepare_of_eq_nil hready]
    exact ⟨regular_signed h hready,
      fun _ => Position.agrees_signed (length_basis_eq_rows problem)⟩
  · exact regular_install_firstReduced h htol hlacks rfl

theorem not_feasible_of_infeasible_of_discerned
    (hcosts : problem.CostsDiscerned options.tolerance) {sum : ℚ}
    (hentry : phase.entry = .infeasible sum) (x : List ℚ) : ¬ problem.Feasible x := by
  obtain ⟨hlacks, hend, hsum⟩ := hs.of_infeasible hentry
  exact not_feasible_of_sumLeft h htol hlacks hcosts hend hsum x

variable (hd : problem.Discerned options.tolerance)

include hd

/-- The position that enters the second phase is ready and agrees with the start tableau. -/
theorem ready_of_feasible_of_discerned {reduced : Reduced ℚ}
    (hentry : phase.entry = .feasible reduced) :
    reduced.position.Ready (problem.dimension + problem.constraints.length) problem.idleColumns ∧
      problem.start.tableau.Agrees reduced.position.tableau := by
  rcases hs.of_feasible hentry with ⟨hready, rfl⟩ | ⟨hlacks, -, hsum, rfl⟩
  · rw [Position.prepare_of_eq_nil hready]
    exact ⟨ready_signed_of_discerned h hready htol hd.bounds,
      Position.agrees_signed (length_basis_eq_rows problem)⟩
  · exact ready_install_firstReduced h htol hlacks hd hsum rfl

theorem entry_ne_unbounded_of_discerned : phase.entry ≠ .unbounded := by
  intro hentry
  obtain ⟨hlacks, -, column, hend⟩ := hs.of_unbounded hentry
  exact ending_firstRun_ne_unbounded h htol hlacks hd column hend

end Discerned

section Exact

variable (htol : options.tolerance = 0)
  (hs : problem.start.Search options problem.idleColumns
    (problem.dimension + problem.constraints.length) phase)

include h htol hs

/-- The position that enters the second phase is ready and agrees with the start tableau. -/
theorem ready_of_feasible {reduced : Reduced ℚ} (hentry : phase.entry = .feasible reduced) :
    reduced.position.Ready (problem.dimension + problem.constraints.length) problem.idleColumns ∧
      problem.start.tableau.Agrees reduced.position.tableau :=
  ready_of_feasible_of_discerned h htol.ge hs (.of_eq_zero htol problem) hentry

theorem not_feasible_of_infeasible {sum : ℚ} (hentry : phase.entry = .infeasible sum)
    (x : List ℚ) : ¬ problem.Feasible x :=
  not_feasible_of_infeasible_of_discerned h htol.ge hs (.of_eq_zero htol problem)
    hentry x

theorem entry_ne_unbounded : phase.entry ≠ .unbounded :=
  entry_ne_unbounded_of_discerned h htol.ge hs (.of_eq_zero htol problem)

end Exact

end Entry

end Problem

end SimplexMethod
