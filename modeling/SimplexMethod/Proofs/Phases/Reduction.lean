import SimplexMethod.Proofs.Phases.Ownership
import SimplexMethod.Proofs.Tableau.Rank

/-!
# What the removal of the artificial columns leaves

Without a tolerance the removal is exact for every tableau with a basis of which the artificial
basic columns are zero: it keeps the solutions without artificial part and the right-hand sides of
the rows that stay, and it drops as many rows as are dependent in the original columns.

## Implementation notes

The removal reads and keeps the constraint rows whatever the objective row is, so the statements
for canonical positions carry over to bases that are not cleared from the objective row.
-/

namespace SimplexMethod

section Constraints

variable {α : Type} [Scalar α]

theorem Tableau.entry_eq_of_rows_eq {t u : Tableau α} (h : t.rows = u.rows) {i : Nat}
    (hi : i < t.rows.length) (j : Nat) : t.entry i j = u.entry i j := by
  rw [entry, line_eq_of_rows_eq h hi, entry]

theorem Tableau.exchange?_eq_of_rows_eq {t u : Tableau α} (h : t.rows = u.rows) {row : Nat}
    (hr : row < t.rows.length) (width : Nat) (tolerance : α) :
    t.exchange? row width tolerance = u.exchange? row width tolerance := by
  simp only [exchange?, entry_eq_of_rows_eq h hr]

theorem Tableau.rows_pivot_eq_of_rows_eq {t u : Tableau α} (h : t.rows = u.rows) {row : Nat}
    (hr : row < t.rows.length) (column : Nat) :
    (t.pivot row column).rows = (u.pivot row column).rows := by
  simp only [pivot, mapLines, entry_eq_of_rows_eq h hr, line_eq_of_rows_eq h hr, h]

namespace Reduced

/-- Two states of the removal that differ at most in the objective row. -/
structure SameRows (state other : Reduced α) : Prop where
  rows_eq : state.position.tableau.rows = other.position.tableau.rows
  basis_eq : state.position.basis = other.position.basis
  dropped_eq : state.dropped = other.dropped

namespace SameRows

variable {state other : Reduced α} {artificial : List Nat} {width : Nat} {tolerance : α}

theorem clearRow (h : SameRows state other) {row : Nat}
    (hr : row < state.position.tableau.rows.length) :
    SameRows (clearRow artificial width tolerance state row)
      (Reduced.clearRow artificial width tolerance other row) := by
  have hexchange := Tableau.exchange?_eq_of_rows_eq h.rows_eq hr width tolerance
  by_cases hmem : state.position.basis.getD row 0 ∈ artificial
  · have hmem' : other.position.basis.getD row 0 ∈ artificial := h.basis_eq ▸ hmem
    cases hx : state.position.tableau.exchange? row width tolerance with
    | none =>
      rw [clearRow_of_none hmem hx, clearRow_of_none hmem' (hexchange ▸ hx)]
      exact ⟨h.rows_eq, h.basis_eq, congrArg (· ++ [row]) h.dropped_eq⟩
    | some column =>
      rw [clearRow_of_some hmem hx, clearRow_of_some hmem' (hexchange ▸ hx)]
      exact ⟨Tableau.rows_pivot_eq_of_rows_eq h.rows_eq hr column,
        congrArg (List.set · row column) h.basis_eq, h.dropped_eq⟩
  · have hmem' : other.position.basis.getD row 0 ∉ artificial := h.basis_eq ▸ hmem
    rw [clearRow_of_notMem hmem, clearRow_of_notMem hmem']
    exact h

/-- What is left has the same rows. -/
theorem left (h : SameRows state other)
    (hlen : state.position.basis.length ≤ state.position.tableau.rows.length) (width : Nat) :
    (state.left width).tableau.rows = (other.left width).tableau.rows ∧
      (state.left width).basis = (other.left width).basis := by
  have hkept : state.kept = other.kept := by
    rw [kept, kept, h.basis_eq, h.dropped_eq]
  constructor
  · change state.kept.map _ = other.kept.map _
    rw [← hkept]
    apply List.map_congr_left
    intro row hr
    rw [Tableau.line_eq_of_rows_eq h.rows_eq (Nat.lt_of_lt_of_le (mem_kept.mp hr).1 hlen)]
  · change state.keptBasis = other.keptBasis
    rw [keptBasis, keptBasis, hkept, h.basis_eq]

end SameRows

end Reduced

/-- The objective row does not matter when all rows are freed. -/
theorem Position.Framed.sameRows_freeAll {p q : Position α} {width count : Nat}
    (h : p.Framed (width + count)) (hrows : p.tableau.rows = q.tableau.rows)
    (hbasis : p.basis = q.basis) (tolerance : α) :
    (p.freeAll (List.range' width count) width tolerance).SameRows
      (q.freeAll (List.range' width count) width tolerance) := by
  have hstart : Reduced.SameRows ⟨p, []⟩ ⟨q, []⟩ := ⟨hrows, hbasis, rfl⟩
  rw [freeAll, freeAll, ← hbasis]
  refine (List.foldl_rel (r := fun (state other : Reduced α) =>
    state.position.Framed (width + count) ∧
      state.position.tableau.rows.length = p.tableau.rows.length ∧ state.SameRows other)
    ⟨h, rfl, hstart⟩ ?_).2.2
  rintro row hr state other ⟨hframed, hlength, hsame⟩
  have hlt : row < state.position.tableau.rows.length := by
    rw [hlength, ← h.length_basis]
    exact List.mem_range.mp hr
  obtain ⟨hframed', hlength'⟩ := hframed.clearRow hlt tolerance
  exact ⟨hframed', hlength'.trans hlength, hsame.clearRow hlt⟩

end Constraints

section Members

variable {α : Type} [Scalar α]

/-- Of the artificial columns only matters which they are, in whatever order they are listed. -/
theorem Position.removeArtificialAt_congr (p : Position α) {artificial other : List Nat}
    (h : ∀ column, column ∈ artificial ↔ column ∈ other) (tolerance : α) :
    p.removeArtificialAt artificial tolerance = p.removeArtificialAt other tolerance := by
  have hmin : artificial.min? = other.min? := by
    apply Option.ext
    intro column
    simp only [List.min?_eq_some_iff, h]
  have hclear : ∀ width, Reduced.clearRowAt artificial width tolerance
      = Reduced.clearRowAt other width tolerance := by
    intro width
    funext state row
    simp only [Reduced.clearRowAt, Reduced.clearRow, h]
  simp only [removeArtificialAt, hmin, hclear]

end Members

theorem Reduced.length_dropped_add_length_kept {α : Type} {state : Reduced α}
    (hnodup : state.dropped.Nodup)
    (hlt : ∀ row ∈ state.dropped, row < state.position.basis.length) :
    state.dropped.length + state.kept.length = state.position.basis.length := by
  have hdropped : ((List.range state.position.basis.length).filter (· ∈ state.dropped)).Perm
      state.dropped := by
    rw [List.perm_ext_iff_of_nodup (List.nodup_range.filter _) hnodup]
    intro row
    simpa using hlt row
  have hsplit := (List.range state.position.basis.length).length_eq_length_filter_add
    (· ∈ state.dropped)
  rw [hdropped.length_eq, List.length_range] at hsplit
  simpa [kept] using hsplit.symm

namespace Position

variable {p : Position ℚ} {width count : ℕ}

theorem BasicInRows.of_rows_eq {q : Position ℚ} (h : p.BasicInRows)
    (hrows : p.tableau.rows = q.tableau.rows) (hbasis : p.basis = q.basis)
    (hwidth : p.tableau.width = q.tableau.width) : q.BasicInRows where
  length_eq := hbasis ▸ hrows ▸ h.length_eq
  nodup := hbasis ▸ h.nodup
  lt_width := hbasis ▸ hwidth ▸ h.lt_width
  unit := by
    intro i j hi hj
    rw [← List.getElem_of_eq hrows (hrows ▸ hi), ← List.getElem_of_eq hbasis (hbasis ▸ hj)]
    exact h.unit i j _ _

/-- The position with the basic columns cleared from its objective row. -/
def canonized (p : Position ℚ) : Position ℚ :=
  ⟨p.install p.tableau.objective, p.basis⟩

theorem rows_canonized (p : Position ℚ) : p.canonized.tableau.rows = p.tableau.rows :=
  p.rows_install p.tableau.objective

section Canonized

variable (hw : p.tableau.HasWidth (width + count + 1)) (h : p.BasicInRows)

include hw h

theorem regular_canonized : p.canonized.Regular (width + count) [] where
  hasWidth := hasWidth_install hw h.length_eq hw.width_eq
  canonical := canonical_install h hw hw.width_eq
  free := fun _ _ => List.not_mem_nil

theorem framed_of_basicInRows : p.Framed (width + count) where
  hasWidth := hw
  length_basis := h.length_eq
  lt_width := by
    intro column hc
    have hlt := h.lt_width column hc
    rw [hw.width_eq] at hlt
    exact Nat.lt_of_succ_lt_succ hlt

variable (hzero : ∀ i < p.tableau.rows.length, width ≤ p.basis.getD i 0 →
  rhs (p.tableau.line i) = 0)

include hzero

omit hw h in
/-- The rows with artificial basic columns have right-hand side zero under any objective. -/
theorem rhs_line_canonized_eq_zero : ∀ i < p.canonized.tableau.rows.length,
    width ≤ p.canonized.basis.getD i 0 → rhs (p.canonized.tableau.line i) = 0 := by
  intro i hi hbasic
  rw [Tableau.line_eq_of_rows_eq (rows_canonized p) hi]
  exact hzero i (rows_canonized p ▸ hi) hbasic

theorem still_canonized :
    Clearing.Still p.canonized.tableau width count [] p.canonized.tableau.rows.length
      (p.canonized.freeAll (List.range' width count) width 0) :=
  still_all (regular_canonized hw h) (fun _ hj => absurd hj List.not_mem_nil) le_rfl
    (.of_eq_zero rfl _ _) (rhs_line_canonized_eq_zero hzero)

/-- The basic point has no artificial part. -/
theorem point_canonized_eq_zero {j : ℕ} (hj : width ≤ j) : p.canonized.point j = 0 :=
  (regular_canonized hw h).canonical.toBasicInRows.point_eq_zero
    (rhs_line_canonized_eq_zero hzero) hj

end Canonized

/-- The result of taking out the artificial columns, which are those from `width` on: the rows that
stay are basic in original columns and have the right-hand sides they had, the solutions are those
without artificial part, and as many rows are dropped as the rank is less than their number. -/
structure ReducesTo (p : Position ℚ) (width count : ℕ) (reduced : Reduced ℚ) : Prop where
  hasWidth : reduced.position.tableau.HasWidth (width + 1)
  basicInRows : reduced.position.BasicInRows
  lt_width : ∀ column ∈ reduced.position.basis, column < width
  nodup_dropped : reduced.dropped.Nodup
  dropped_lt : ∀ row ∈ reduced.dropped, row < p.tableau.rows.length
  rhs_eq : reduced.position.tableau.rows.map rhs
    = ((List.range p.tableau.rows.length).filter (· ∉ reduced.dropped)).map
        fun row => rhs (p.tableau.line row)
  solves_iff : ∀ v : List ℚ, v.length = width →
    (reduced.position.tableau.Solves v ↔ p.tableau.Solves (v ++ List.replicate count 0))
  length_dropped_add_rank :
    reduced.dropped.length + (p.tableau.leading width).rank = p.tableau.rows.length

section Left

variable (hw : p.tableau.HasWidth (width + count + 1)) (h : p.BasicInRows)
  (hzero : ∀ i < p.tableau.rows.length, width ≤ p.basis.getD i 0 → rhs (p.tableau.line i) = 0)

include hw h

theorem sameRows_canonized :
    (p.freeAll (List.range' width count) width 0).SameRows
      (p.canonized.freeAll (List.range' width count) width 0) :=
  (framed_of_basicInRows hw h).sameRows_freeAll p.rows_canonized.symm rfl 0

theorem freed_freeAll : Freed width count p.tableau.rows.length p.tableau.rows.length
    (p.freeAll (List.range' width count) width (0 : ℚ)) :=
  Freed.all (framed_of_basicInRows hw h)

theorem length_basis_freeAll :
    (p.freeAll (List.range' width count) width (0 : ℚ)).position.basis.length
      = p.tableau.rows.length := by
  have hfreed := freed_freeAll hw h
  rw [hfreed.framed.length_basis, hfreed.length_rows]

theorem left_canonized :
    ((p.freeAll (List.range' width count) width 0).left width).tableau.rows
        = ((p.canonized.freeAll (List.range' width count) width 0).left width).tableau.rows ∧
      ((p.freeAll (List.range' width count) width 0).left width).basis
        = ((p.canonized.freeAll (List.range' width count) width 0).left width).basis :=
  (sameRows_canonized hw h).left (freed_freeAll hw h).framed.length_basis.le width

include hzero

theorem basicInRows_left_freeAll :
    ((p.freeAll (List.range' width count) width 0).left width).BasicInRows := by
  have hstill := still_canonized hw h hzero
  obtain ⟨hrows, hbasis⟩ := left_canonized hw h
  apply hstill.basicInRows_left.of_rows_eq hrows.symm hbasis.symm
  rw [hstill.framed_left.hasWidth.width_eq, (freed_freeAll hw h).framed_left.hasWidth.width_eq]

/-- The solutions of what is left are the solutions without artificial part. -/
theorem solvedBy_left_freeAll_iff (x : ℕ → ℚ) :
    ((p.freeAll (List.range' width count) width 0).left width).tableau.SolvedBy x ↔
      p.tableau.SolvedBy (cutAt width x) := by
  have hstill := still_canonized hw h hzero
  rw [Tableau.SolvedBy, (left_canonized hw h).1, ← Tableau.SolvedBy,
    hstill.solvedBy_left_iff (hstill.gap_dropped_eq_zero x), Tableau.SolvedBy,
    rows_canonized p, ← Tableau.SolvedBy]

/-- A row that stays keeps its right-hand side. -/
theorem rhs_line_freeAll {row : ℕ} (hr : row < p.tableau.rows.length) :
    rhs ((p.freeAll (List.range' width count) width 0).position.tableau.line row)
      = rhs (p.tableau.line row) := by
  have hrows := p.rows_canonized
  have hr' : row < p.canonized.tableau.rows.length := hrows.symm ▸ hr
  rw [Tableau.line_eq_of_rows_eq (sameRows_canonized hw h).rows_eq
      ((freed_freeAll hw h).length_rows.symm ▸ hr),
    (still_canonized hw h hzero).rhs_eq row hr', Tableau.line_eq_of_rows_eq hrows hr']

theorem rank_leading_eq_length_kept : (p.tableau.leading width).rank
    = (p.freeAll (List.range' width count) width (0 : ℚ)).kept.length := by
  have hfreed := freed_freeAll hw h
  have hsolved : p.tableau.SolvedBy p.canonized.point := by
    have hregular := regular_canonized hw h
    rw [Tableau.SolvedBy, ← rows_canonized p]
    exact hregular.canonical.solvedBy_point hregular.hasWidth
  have hrank : (p.tableau.leading width).rank
      = (((p.freeAll (List.range' width count) width 0).left width).tableau.leading width).rank := by
    apply Tableau.rank_leading_eq hw hfreed.framed_left.hasWidth (Nat.le_add_right _ _) le_rfl _
      (fun j hj => point_canonized_eq_zero hw h hzero hj) hsolved
    intro x hx
    rw [solvedBy_left_freeAll_iff hw h hzero, cutAt_eq_self hx]
  rw [hrank, (basicInRows_left_freeAll hw h hzero).rank_leading hfreed.framed_left.lt_width]
  simp [Reduced.left, Tableau.restrict]

end Left

/-- Without a tolerance the artificial columns of a basis can be taken out exactly, if those that
are basic are zero. -/
theorem exists_reducesTo (hw : p.tableau.HasWidth (width + count + 1)) (h : p.BasicInRows)
    (hcount : 0 < count) {artificial : List ℕ}
    (hartificial : ∀ column, column ∈ artificial ↔ width ≤ column ∧ column < width + count)
    (hzero : ∀ i < p.tableau.rows.length, p.basis.getD i 0 ∈ artificial →
      rhs (p.tableau.line i) = 0) :
    ∃ reduced, p.removeArtificialAt artificial 0 = .ok reduced ∧
      p.ReducesTo width count reduced := by
  have hframed := framed_of_basicInRows hw h
  have hzero' : ∀ i < p.tableau.rows.length, width ≤ p.basis.getD i 0 →
      rhs (p.tableau.line i) = 0 := fun i hi hle =>
    hzero i hi ((hartificial _).mpr ⟨hle, hframed.getD_basis_lt hi⟩)
  have hmembers : ∀ column, column ∈ artificial ↔ column ∈ List.range' width count := by
    intro column
    rw [hartificial, List.mem_range'_1]
  have hfreed := freed_freeAll hw h
  have hlength := length_basis_freeAll hw h
  have hheld := Held.all p (List.range' width count) width (0 : ℚ)
  rw [h.length_eq] at hheld
  refine ⟨_, (p.removeArtificialAt_congr hmembers 0).trans
    (hframed.removeArtificialAt_eq_ok hcount 0), ?_⟩
  rw [removeArtificial_eq]
  exact
    { hasWidth := hfreed.framed_left.hasWidth
      basicInRows := basicInRows_left_freeAll hw h hzero'
      lt_width := hfreed.framed_left.lt_width
      nodup_dropped := hheld.nodup
      dropped_lt := hheld.dropped_lt
      rhs_eq := by
        have hkept : (List.range p.tableau.rows.length).filter
            (· ∉ (p.freeAll (List.range' width count) width (0 : ℚ)).dropped)
              = (p.freeAll (List.range' width count) width (0 : ℚ)).kept := by
          rw [Reduced.kept, hlength]
        change ((Reduced.kept _).map _).map rhs = _
        rw [hkept, List.map_map]
        apply List.map_congr_left
        intro row hr
        rw [Function.comp_apply, cutTo, rhs_append,
          rhs_line_freeAll hw h hzero' (hfreed.lt_of_mem_kept hr)]
      solves_iff := by
        intro v hv
        have hcut : cutAt width (v.getD · 0) = (v.getD · 0) :=
          cutAt_eq_self fun j hj => List.getD_eq_default _ _ (hv ▸ hj)
        rw [Tableau.solves_iff_solvedBy, Tableau.solves_iff_solvedBy,
          solvedBy_left_freeAll_iff hw h hzero', hcut]
        simp only [getD_append_zeros]
      length_dropped_add_rank := by
        rw [rank_leading_eq_length_kept hw h hzero', ← hlength]
        exact Reduced.length_dropped_add_length_kept hheld.nodup (hlength ▸ hheld.dropped_lt) }

/-- A basis with two artificial basic columns, in rows of which one follows from the other. -/
def encumbered : Position ℚ where
  tableau :=
    { rows := [[1, 1, 0, 1, 0, 0, 2], [0, 2, -1, -1, 1, 0, 0], [0, 4, -2, 0, 0, 1, 0]],
      objective := [0, -2, 1, 3, 0, 0, 0] }
  basis := [0, 4, 5]

/-- The first artificial column is exchanged, which leaves nothing to exchange the second for. -/
theorem reducesTo_encumbered :
    ∃ reduced, encumbered.removeArtificialAt [5, 3, 4] 0 = .ok reduced ∧
      reduced.position.basis = [0, 1] ∧ reduced.dropped = [2] ∧
      encumbered.ReducesTo 3 3 reduced := by
  have hcanonical : encumbered.Canonical := by decide +kernel
  obtain ⟨reduced, hreduced, hreduces⟩ :=
    @exists_reducesTo encumbered 3 3 (by simp [encumbered, Tableau.HasWidth, Tableau.lines])
      hcanonical.toBasicInRows (by decide) [5, 3, 4]
      (fun column => by simp only [List.mem_cons, List.not_mem_nil, or_false]; omega)
      (by decide +kernel)
  have hread : ((encumbered.removeArtificialAt [5, 3, 4] 0).toOption.map fun reduced =>
      (reduced.position.basis, reduced.dropped)) = some ([0, 1], [2]) := by decide +kernel
  rw [hreduced] at hread
  obtain ⟨hbasis, hdropped⟩ := Prod.mk.inj (Option.some.inj hread)
  exact ⟨reduced, hreduced, hbasis, hdropped, hreduces⟩

end Position

end SimplexMethod
