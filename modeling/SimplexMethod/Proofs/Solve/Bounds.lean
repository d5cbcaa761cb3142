import SimplexMethod.Proofs.Solve.Routes

/-!
# The bounds of a solve

Whatever the arithmetic, a solve reads and writes inside its tableaux only. The positions of a
phase have one size: the first phase has one column for each artificial column past those of the
problem, and the second phase has none of them. The pivots lie inside. So no step is refused, and
a solve always gives an answer.
-/

namespace SimplexMethod

variable {α : Type}

/-- The position has the given numbers of rows and of columns besides the right-hand side, and every
row has a basic column among them. -/
structure Position.Spans (p : Position α) (rows width : Nat) : Prop extends p.Framed width where
  length_rows : p.tableau.rows.length = rows

/-- The pivot lies inside a tableau of the given size and leads to another one. -/
structure Pivot.InBounds (pivot : Pivot α) (rows width : Nat) : Prop where
  leaving_lt : pivot.leaving < rows
  entering_lt : pivot.entering < width
  after : pivot.after.Spans rows width

/-- All positions of the run have the given size, its pivots lie inside, and it does not break
off. -/
structure Run.InBounds (run : Run α) (start : Position α) (rows width : Nat) : Prop where
  start : start.Spans rows width
  pivots : ∀ pivot ∈ run.pivots, pivot.InBounds rows width
  last : run.last.Spans rows width
  ending_ne : run.ending ≠ .noBasicColumn

variable [Scalar α]

/-- The state of the removal when the rows before `done` have been cleared. -/
def Position.freeBefore (p : Position α) (artificial : List Nat) (width : Nat) (tolerance : α)
    (done : Nat) : Reduced α :=
  (List.range done).foldl (Reduced.clearRow artificial width tolerance) ⟨p, []⟩

/-- The artificial columns are those past the given width. All positions of the first phase have
them, also while they are taken out of the basis row by row; what enters the second phase has
none of them. -/
structure FirstPhase.InBounds (first : FirstPhase α) (tolerance : α) (rows width : Nat) : Prop where
  artificial_eq :
    first.prepared.artificial = List.range' width first.prepared.artificial.length
  prepared :
    first.prepared.position.Spans rows (width + first.prepared.artificial.length)
  run : ∀ run, first.run = some run →
    run.InBounds first.prepared.position rows (width + first.prepared.artificial.length)
  freed : ∀ run, first.run = some run → ∀ done ≤ rows,
    (run.last.freeBefore first.prepared.artificial width tolerance done).position.Spans rows
      (width + first.prepared.artificial.length)
  reduced : ∀ reduced, first.entry = .feasible reduced →
    reduced.position.Spans reduced.position.basis.length width ∧
      ∀ column ∈ reduced.position.basis, column ∉ first.prepared.artificial

/-- Each phase stays inside tableaux of one size. The second phase has the columns of the problem,
one row for each basic column, and no artificial column in its basis. -/
structure Outcome.InBounds (outcome : Outcome α) (problem : Problem α) (options : Options α) :
    Prop where
  first : ∀ first, outcome.first = some first →
    first.InBounds options.tolerance problem.constraints.length
      (problem.dimension + problem.constraints.length)
  second : ∀ run, outcome.second = some run → ∃ start, problem.Enters options start ∧
    run = secondRun problem options start outcome.firstIterations ∧
    run.InBounds start start.basis.length (problem.dimension + problem.constraints.length)
  free : ∀ first, outcome.first = some first → ∀ position, outcome.Shows position →
    ∀ column ∈ position.basis, column ∉ first.prepared.artificial

/-- What may be answered to a problem: nothing if it has no rows, its fault if it has one, and
otherwise an outcome inside its bounds. -/
inductive Answer.Given (problem : Problem α) (options : Options α) : Answer α → Prop where
  | nothingToSolve (hnone : problem.constraints = []) : Given problem options .nothingToSolve
  | rejected {fault : ProblemFault} (hrows : problem.constraints ≠ [])
      (hfault : problem.fault? = some fault) : Given problem options (.rejected fault)
  | solved {outcome : Outcome α} (hrows : problem.constraints ≠ [])
      (hfault : problem.fault? = none) (hbounds : outcome.InBounds problem options) :
      Given problem options (.solved outcome)

namespace Position

variable {p : Position α} {rows width : Nat}

/-- A pivot inside a position leads to another one of its size. -/
theorem Spans.exchange (h : p.Spans rows width) {row column : Nat} (hr : row < rows)
    (hc : column < width) :
    Spans ⟨p.tableau.pivot row column, p.basis.set row column⟩ rows width where
  toFramed := h.toFramed.exchange (h.length_rows ▸ hr) hc
  length_rows := by simpa using h.length_rows

/-- A run stays inside the size of its start. -/
theorem Spans.run (h : p.Spans rows width) (options : Options α) (barred : List Nat)
    (budget : Nat) : (p.run options barred budget).InBounds p rows width := by
  refine Pivoting.run_induction (s := p.state options)
    (motive := fun _ s run => s.position.Spans rows width → run.InBounds s.position rows width)
    ?_ ?_ budget (Nat.le_of_eq h.length_basis.symm) h
  · intro _ s ending hends _ hspans
    refine ⟨hspans, fun _ hmem => absurd hmem List.not_mem_nil, hspans, ?_⟩
    rintro rfl
    exact hends
  · intro _ s entering leaving rest hm hrest hspans
    have hleaving : leaving < rows := hspans.length_rows ▸ hm.leaving_lt
    have hentering : entering < width := hm.entering_lt hspans.hasWidth
    have hafter : (s.moved entering leaving).Spans rows width :=
      hspans.exchange hleaving hentering
    have htail := hrest hafter
    refine ⟨hspans, ?_, htail.last, htail.ending_ne⟩
    intro pivot hmem
    rcases List.mem_cons.mp hmem with rfl | hlater
    · exact ⟨hleaving, hentering, hafter⟩
    · exact htail.pivots pivot hlater

/-- Taking artificial columns out of the basis keeps the size. -/
theorem Spans.freeBefore {count : Nat} (h : p.Spans rows (width + count)) (tolerance : α)
    {done : Nat} (hdone : done ≤ rows) :
    (p.freeBefore (List.range' width count) width tolerance done).position.Spans rows
      (width + count) := by
  refine foldl_range_induction
    (motive := fun _ (state : Reduced α) => state.position.Spans rows (width + count)) h ?_
  intro row hrow state hstate
  have hlt : row < state.position.tableau.rows.length :=
    hstate.length_rows.symm ▸ Nat.lt_of_lt_of_le hrow hdone
  obtain ⟨hframed, hlength⟩ := hstate.toFramed.clearRow hlt tolerance
  exact ⟨hframed, hlength.trans hstate.length_rows⟩

/-- A framed start is prepared without a change of its rows, and the artificial columns are those
past its own. -/
theorem Framed.spans_prepare (h : p.Framed width) (tolerance : α) :
    (p.prepare tolerance).artificial
        = List.range' width (p.prepare tolerance).artificial.length ∧
      (p.prepare tolerance).position.Spans p.tableau.rows.length
        (width + (p.prepare tolerance).artificial.length) := by
  by_cases hlacks : p.lackingRows tolerance = []
  · rw [prepare_of_eq_nil hlacks]
    exact ⟨rfl, h.signed tolerance, p.length_rows_signed tolerance⟩
  · rw [prepare_of_ne_nil h.hasWidth hlacks, List.length_range']
    exact ⟨rfl, h.artificial (lt_of_mem_lackingRows h) tolerance, by simp⟩

end Position

/-- A column among the first ones is no artificial column. -/
theorem notMem_range'_of_lt {width count column : Nat} (h : column < width) :
    column ∉ List.range' width count := fun hmem =>
  absurd (List.mem_range'_1.mp hmem).1 (Nat.not_le_of_lt h)

variable {problem : Problem α} {options : Options α}

/-- The first phase of an accepted problem stays in its bounds. -/
theorem Position.Search.inBounds {start : Position α} {barred : List Nat} {width : Nat}
    {first : FirstPhase α} (hs : start.Search options barred width first)
    (h : start.Framed width) :
    first.InBounds options.tolerance start.tableau.rows.length width := by
  obtain ⟨hartificial, hspans⟩ := h.spans_prepare options.tolerance
  have hrun : ∀ run, first.run = some run → run.InBounds
      (start.prepare options.tolerance).position start.tableau.rows.length
      (width + (start.prepare options.tolerance).artificial.length) := by
    intro run hrun
    obtain ⟨-, rfl⟩ := hs.of_run hrun
    exact hspans.run _ _ _
  constructor
  · rw [hs.prepared_eq]
    exact hartificial
  · rw [hs.prepared_eq]
    exact hspans
  · rw [hs.prepared_eq]
    exact hrun
  · intro run hown done hdone
    rw [hs.prepared_eq]
    have hfreed := (hrun run hown).last.freeBefore options.tolerance hdone
    rwa [← hartificial] at hfreed
  · intro reduced hentry
    have hframed := hs.framed h hentry
    refine ⟨⟨hframed, hframed.length_basis.symm⟩, ?_⟩
    intro column hmem
    rw [hs.prepared_eq, hartificial]
    exact notMem_range'_of_lt (hframed.lt_width column hmem)

/-- A solve by either route stays in its bounds. -/
theorem Route.inBounds {outcome : Outcome α} (h : Route problem options outcome)
    (hfault : problem.fault? = none) : outcome.InBounds problem options := by
  have hstart := Problem.framed_start hfault
  have hfirst : ∀ first, outcome.first = some first →
      first.InBounds options.tolerance problem.constraints.length
        (problem.dimension + problem.constraints.length) := by
    intro first hown
    cases h with
    | single => exact absurd hown nofun
    | double _ hcourse =>
      obtain ⟨other, hother, hsearch⟩ := hcourse.exists_first
      obtain rfl := Option.some.inj (hother.symm.trans hown)
      have hbounds := hsearch.inBounds hstart
      rwa [Problem.length_rows_start] at hbounds
  have hsecond : ∀ run, outcome.second = some run → ∃ start, problem.Enters options start ∧
      run = secondRun problem options start outcome.firstIterations ∧
      run.InBounds start start.basis.length (problem.dimension + problem.constraints.length) := by
    intro run hown
    obtain ⟨start, henters, hrun⟩ := h.of_second hown
    have hframed := henters.framed hfault
    have hspans : start.Spans start.basis.length
        (problem.dimension + problem.constraints.length) :=
      ⟨hframed, hframed.length_basis.symm⟩
    exact ⟨start, henters, hrun, hrun ▸ hspans.run _ _ _⟩
  refine ⟨hfirst, hsecond, ?_⟩
  intro first hown position hshows column hmem
  obtain ⟨start, henters, k, rfl⟩ := h.exists_visits hfault hshows
  have hframed := Position.Framed.after (s := start.state options) (henters.framed hfault)
    (options.setting problem.idleColumns) k
  rw [(hfirst first hown).artificial_eq]
  exact notMem_range'_of_lt (hframed.lt_width column hmem)

/-- A solve never fails: whatever the arithmetic, the problem and the options, it gives an answer,
which is nothing exactly for a problem without rows, and no step leaves the bounds of a tableau. -/
theorem exists_solve_inBounds (problem : Problem α) (options : Options α) :
    ∃ answer, solve problem options = .ok answer ∧ answer.Given problem options ∧
      (answer.result? = none ↔ problem.constraints = []) := by
  by_cases hrows : problem.constraints = []
  · exact ⟨_, solve_eq_of_nil hrows, .nothingToSolve hrows, iff_of_true rfl hrows⟩
  cases hfault : problem.fault? with
  | some fault =>
    exact ⟨_, solve_eq_of_fault hfault hrows, .rejected hrows hfault, iff_of_false nofun hrows⟩
  | none =>
    obtain ⟨outcome, hsolve, hroute, -⟩ := exists_solve_route hfault hrows options
    exact ⟨_, hsolve, .solved hrows hfault (hroute.inBounds hfault), iff_of_false nofun hrows⟩

end SimplexMethod
