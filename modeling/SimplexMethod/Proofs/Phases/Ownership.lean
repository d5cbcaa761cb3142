import SimplexMethod.Proofs.Phases.Entry

/-!
# The rows that artificial columns were made for

An artificial column is made for one row of the problem, but it need not stay in the line of that
row: it may leave the basis and come back in another line. A line that is dropped states that its
own artificial column is zero, so it is the row this column was made for that says nothing, whatever
the number of the line.
-/

namespace SimplexMethod

section Held

variable {α : Type}

/-- The row of the problem that an artificial column was made for. -/
def Prepared.owner (prepared : Prepared α) (column : Nat) : Nat :=
  prepared.lacking.getD (prepared.artificial.idxOf column) 0

/-- The state of the removal after the lines before `done`: the later lines and the dropped ones
hold the columns they held at first, those of the dropped lines are artificial. -/
structure Held (basis artificial : List Nat) (done : Nat) (state : Reduced α) : Prop where
  pending_eq : ∀ i, done ≤ i → state.position.basis.getD i 0 = basis.getD i 0
  dropped_lt : ∀ row ∈ state.dropped, row < done
  dropped_eq : ∀ row ∈ state.dropped, state.position.basis.getD row 0 = basis.getD row 0
  artificial : ∀ row ∈ state.dropped, basis.getD row 0 ∈ artificial
  nodup : state.dropped.Nodup

namespace Held

variable {basis artificial : List Nat} {done width : Nat} {state : Reduced α}

theorem keep (h : Held basis artificial done state) : Held basis artificial (done + 1) state where
  pending_eq := fun i hi => h.pending_eq i (Nat.le_of_succ_le hi)
  dropped_lt := fun row hr => Nat.lt_succ_of_lt (h.dropped_lt row hr)
  dropped_eq := h.dropped_eq
  artificial := h.artificial
  nodup := h.nodup

theorem drop (h : Held basis artificial done state)
    (hmem : state.position.basis.getD done 0 ∈ artificial) :
    Held basis artificial (done + 1) { state with dropped := state.dropped ++ [done] } where
  pending_eq := h.keep.pending_eq
  dropped_lt := by
    intro row hr
    rcases List.mem_append.mp hr with hold | hnew
    · exact h.keep.dropped_lt row hold
    · rw [List.mem_singleton.mp hnew]
      exact Nat.lt_succ_self done
  dropped_eq := by
    intro row hr
    rcases List.mem_append.mp hr with hold | hnew
    · exact h.dropped_eq row hold
    · rw [List.mem_singleton.mp hnew]
      exact h.pending_eq done (Nat.le_refl done)
  artificial := by
    intro row hr
    rcases List.mem_append.mp hr with hold | hnew
    · exact h.artificial row hold
    · rw [List.mem_singleton.mp hnew, ← h.pending_eq done (Nat.le_refl done)]
      exact hmem
  nodup := by
    apply List.nodup_append.mpr
    refine ⟨h.nodup, List.nodup_singleton done, ?_⟩
    intro row hr other hother
    rw [List.mem_singleton.mp hother]
    exact Nat.ne_of_lt (h.dropped_lt row hr)

theorem exchange (h : Held basis artificial done state) (t : Tableau α) (column : Nat) :
    Held basis artificial (done + 1)
      { state with position := ⟨t, state.position.basis.set done column⟩ } where
  pending_eq := by
    intro i hi
    exact (getD_set_of_ne (Nat.ne_of_lt hi) column).trans
      (h.pending_eq i (Nat.le_of_succ_le hi))
  dropped_lt := h.keep.dropped_lt
  dropped_eq := by
    intro row hr
    exact (getD_set_of_ne (Nat.ne_of_gt (h.dropped_lt row hr)) column).trans
      (h.dropped_eq row hr)
  artificial := h.artificial
  nodup := h.nodup

variable [Scalar α]

theorem step (h : Held basis artificial done state) (width : Nat) (tolerance : α) :
    Held basis artificial (done + 1)
      (Reduced.clearRow artificial width tolerance state done) := by
  by_cases hmem : state.position.basis.getD done 0 ∈ artificial
  · cases hx : state.position.tableau.exchange? done width tolerance with
    | none =>
      rw [Reduced.clearRow_of_none hmem hx]
      exact h.drop hmem
    | some column =>
      rw [Reduced.clearRow_of_some hmem hx]
      exact h.exchange _ column
  · rw [Reduced.clearRow_of_notMem hmem]
    exact h.keep

/-- A dropped line still holds the artificial column that it held before the removal. -/
theorem all (p : Position α) (artificial : List Nat) (width : Nat) (tolerance : α) :
    Held p.basis artificial p.basis.length (p.freeAll artificial width tolerance) := by
  rw [Position.freeAll]
  apply foldl_range_induction (motive := fun done state => Held p.basis artificial done state)
  · exact
      { pending_eq := fun _ _ => rfl
        dropped_lt := fun _ hr => absurd hr List.not_mem_nil
        dropped_eq := fun _ hr => absurd hr List.not_mem_nil
        artificial := fun _ hr => absurd hr List.not_mem_nil
        nodup := List.nodup_nil }
  · intro done _ state h
    exact h.step width tolerance

end Held

/-- A line whose basic column is not artificial keeps it. -/
theorem Position.getD_basis_freeAll [Scalar α] (p : Position α) {artificial : List Nat} {i : Nat}
    (hi : p.basis.getD i 0 ∉ artificial) (width : Nat) (tolerance : α) :
    (p.freeAll artificial width tolerance).position.basis.getD i 0 = p.basis.getD i 0 := by
  rw [freeAll]
  apply foldl_range_induction
    (motive := fun _ (state : Reduced α) => state.position.basis.getD i 0 = p.basis.getD i 0)
  · rfl
  · intro row _ state hstays
    by_cases hmem : state.position.basis.getD row 0 ∈ artificial
    · cases hx : state.position.tableau.exchange? row width tolerance with
      | none => rwa [Reduced.clearRow_of_none hmem hx]
      | some column =>
        have hne : row ≠ i := by
          rintro rfl
          exact hi (hstays ▸ hmem)
        rw [Reduced.clearRow_of_some hmem hx]
        exact (getD_set_of_ne hne column).trans hstays
    · rwa [Reduced.clearRow_of_notMem hmem]

/-- An original basic column stays basic. -/
theorem Position.Framed.mem_keptBasis_freeAll [Scalar α] {p : Position α} {width count : Nat}
    (h : p.Framed (width + count)) {j : Nat} (hj : j ∈ p.basis) (hlt : j < width)
    (tolerance : α) :
    j ∈ (p.freeAll (List.range' width count) width tolerance).keptBasis := by
  obtain ⟨i, hi, rfl⟩ := List.mem_iff_getElem.mp hj
  have hfreed : Freed width count p.tableau.rows.length p.tableau.rows.length
      (p.freeAll (List.range' width count) width tolerance) := Freed.all h
  have hbasic : p.basis.getD i 0 = p.basis[i] := List.getD_eq_getElem _ _ hi
  have hnot : p.basis.getD i 0 ∉ List.range' width count := by
    rw [hbasic, List.mem_range'_1]
    exact fun hmem => absurd hlt (Nat.not_lt_of_le hmem.1)
  have hrow : i < (p.freeAll (List.range' width count) width
      tolerance).position.basis.length := by
    rwa [hfreed.framed.length_basis, hfreed.length_rows, ← h.length_basis]
  have hkept : i ∉ (p.freeAll (List.range' width count) width tolerance).dropped :=
    fun hdropped => hnot ((Held.all p _ width tolerance).artificial i hdropped)
  exact List.mem_map.mpr
    ⟨i, Reduced.mem_kept.mpr ⟨hrow, hkept⟩, (p.getD_basis_freeAll hnot width tolerance).trans hbasic⟩

end Held

section Stays

theorem lt_length_of_getD_ne_zero {basis : List ℕ} {i : ℕ} (h : basis.getD i 0 ≠ 0) :
    i < basis.length :=
  not_le.mp fun hle => h (List.getD_eq_default _ _ hle)

variable {α : Type} [Scalar α]

/-- A run of which no pivot lets one of the given columns enter finds those that are still basic
where they were basic at first. -/
theorem Position.getD_basis_last_run {p : Position α}
    (h : p.tableau.rows.length ≤ p.basis.length) (options : Options α) (barred : List Nat)
    (budget : Nat) {columns : List Nat}
    (hentering : ∀ pivot ∈ (p.run options barred budget).pivots, pivot.entering ∉ columns)
    (i : Nat) (hi : (p.run options barred budget).last.basis.getD i 0 ∈ columns) :
    (p.run options barred budget).last.basis.getD i 0 = p.basis.getD i 0 := by
  refine Pivoting.run_induction (s := p.state options)
    (motive := fun _ s run => (∀ pivot ∈ run.pivots, pivot.entering ∉ columns) →
      run.last.basis.getD i 0 ∈ columns →
      run.last.basis.getD i 0 = s.position.basis.getD i 0) ?_ ?_ budget h hentering hi
  · intro _ s _ _ _ _ _
    rfl
  · intro _ s entering leaving rest hm hrest hentering hi
    have hlater := hrest (fun pivot hp => hentering pivot (List.mem_cons_of_mem _ hp)) hi
    have hnew : entering ∉ columns := hentering _ List.mem_cons_self
    change rest.last.basis.getD i 0 = (s.position.basis.set leaving entering).getD i 0 at hlater
    change rest.last.basis.getD i 0 ∈ columns at hi
    rcases getD_set_eq_or s.position.basis leaving entering i with heq | heq
    · exact absurd (heq ▸ hlater ▸ hi) hnew
    · exact hlater.trans heq

end Stays

/-- At a solution that is zero in the artificial columns outside the basis, the artificial column
of a dropped line is zero too: the line reads nothing else. -/
theorem Clearing.Still.eq_zero_of_dropped {t : Tableau ℚ} {width count : ℕ} {barred : List ℕ}
    {state : Reduced ℚ} (h : Still t width count barred t.rows.length state) {x : ℕ → ℚ}
    (hs : state.position.tableau.SolvedBy x)
    (hx : ∀ j < width + count, width ≤ j → j ∉ state.position.basis → x j = 0) {row : ℕ}
    (hr : row ∈ state.dropped) (hbasic : width ≤ state.position.basis.getD row 0) :
    x (state.position.basis.getD row 0) = 0 := by
  obtain ⟨hzero, hrhs⟩ := h.dropped_zero row hr
  have hlt : row < state.position.tableau.rows.length := h.length_rows ▸ h.dropped_lt row hr
  have hb : row < state.position.basis.length := h.regular.canonical.length_eq ▸ hlt
  have hform : formAt (state.position.tableau.line row) x
      = formAt (state.position.tableau.line row) (fun j => if j < width then 0 else x j) := by
    apply Finset.sum_congr rfl
    intro j _
    dsimp only
    split
    · rename_i hj
      rw [← Tableau.entry, hzero j hj, zero_mul, zero_mul]
    · rfl
  have hoff : ∀ j < width + count, j ∉ state.position.basis →
      (if j < width then 0 else x j) = 0 := by
    intro j hj hmem
    split
    · rfl
    · rename_i hge
      exact hx j hj (not_lt.mp hge) hmem
  have hgap := Tableau.solvedBy_iff.mp hs row hlt
  rw [gap, hrhs, sub_zero, hform, h.regular.canonical.formAt_line h.regular.hasWidth hoff hb]
    at hgap
  rw [List.getD_eq_getElem _ _ hb] at hbasic ⊢
  rwa [if_neg (not_lt.mpr hbasic)] at hgap

namespace Problem

variable {problem : Problem ℚ} {tolerance : ℚ}

section Balanced

/-- The point with artificial columns that take up the gaps of the rows they were made for. -/
def balanced (problem : Problem ℚ) (tolerance : ℚ) (x : ℕ → ℚ) : ℕ → ℚ := fun j =>
  if j < problem.dimension + problem.constraints.length then x j
  else
    -(problem.start.rowSign tolerance ((problem.start.prepare tolerance).owner j)
      * gap (problem.start.tableau.line ((problem.start.prepare tolerance).owner j)) x)

theorem owner_prepare (h : problem.fault? = none) {k : ℕ}
    (hk : k < (problem.start.lackingRows tolerance).length) :
    (problem.start.prepare tolerance).owner
        (problem.dimension + problem.constraints.length + k)
      = (problem.start.lackingRows tolerance)[k] := by
  have hlacks : problem.start.lackingRows tolerance ≠ [] :=
    List.ne_nil_of_length_pos (Nat.zero_lt_of_lt hk)
  have hindex : (List.range' (problem.dimension + problem.constraints.length)
      (problem.start.lackingRows tolerance).length).idxOf
        (problem.dimension + problem.constraints.length + k) = k := by
    have hnodup : (List.range' (problem.dimension + problem.constraints.length)
        (problem.start.lackingRows tolerance).length).Nodup := List.nodup_range'
    have hget := hnodup.idxOf_getElem k (by simpa using hk)
    rwa [List.getElem_range'_1] at hget
  rw [Prepared.owner, Position.prepare_of_ne_nil (hasWidth_start h) hlacks]
  simp only
  rw [hindex, List.getD_eq_getElem _ _ hk]

variable (h : problem.fault? = none) {x : ℕ → ℚ}

include h

theorem balanced_add {k : ℕ} (hk : k < (problem.start.lackingRows tolerance).length) :
    problem.balanced tolerance x (problem.dimension + problem.constraints.length + k)
      = -(problem.start.rowSign tolerance (problem.start.lackingRows tolerance)[k]
        * gap (problem.start.tableau.line (problem.start.lackingRows tolerance)[k]) x) := by
  rw [balanced, if_neg (by omega), owner_prepare h hk]

theorem gap_line_balanced {i : ℕ} (hi : i < problem.constraints.length) :
    gap (problem.start.tableau.line i) (problem.balanced tolerance x)
      = gap (problem.start.tableau.line i) x := by
  apply gap_congr
  intro j hj
  rw [(hasWidth_start h).length_line (Nat.lt_succ_of_lt (by simpa using hi))] at hj
  exact if_pos hj

/-- Whatever gaps a point has in rows that were given an artificial column, with these columns it
solves the auxiliary tableau. -/
theorem solvedBy_balanced
    (hx : ∀ i < problem.constraints.length, i ∉ problem.start.lackingRows tolerance →
      gap (problem.start.tableau.line i) x = 0) :
    (problem.auxiliary tolerance).tableau.SolvedBy (problem.balanced tolerance x) := by
  rw [Tableau.solvedBy_iff, length_rows_auxiliary]
  intro i hi
  rw [gap_line_auxiliary h hi, gap_line_balanced h hi, linearForm, List.length_map]
  by_cases hmem : i ∈ problem.start.lackingRows tolerance
  · obtain ⟨k, hk, rfl⟩ := List.mem_iff_getElem.mp hmem
    rw [Finset.sum_eq_single_of_mem k (Finset.mem_range.mpr hk), balanced_add h hk]
    · simp [List.getD, hk]
    · intro l hl hne
      have hl' := Finset.mem_range.mp hl
      have hother : (problem.start.lackingRows tolerance)[l]
          ≠ (problem.start.lackingRows tolerance)[k] :=
        fun heq => hne ((problem.start.nodup_lackingRows tolerance).getElem_inj_iff.mp heq)
      simp [List.getD, hl', hother]
  · rw [hx i hi hmem, mul_zero, zero_add]
    apply Finset.sum_eq_zero
    intro k hk
    have hk' := Finset.mem_range.mp hk
    have hother : (problem.start.lackingRows tolerance)[k] ≠ i :=
      fun heq => hmem (heq ▸ List.getElem_mem hk')
    simp [List.getD, hk', hother]

end Balanced

section Owners

variable {options : Options ℚ}

/-- The rows that the artificial columns in the dropped lines were made for. -/
def owners (problem : Problem ℚ) (options : Options ℚ) : List ℕ :=
  (problem.cleared options).dropped.map fun line =>
    (problem.start.prepare options.tolerance).owner
      ((problem.start.firstRun options problem.idleColumns).last.basis.getD line 0)

theorem held_cleared (problem : Problem ℚ) (options : Options ℚ) :
    Held (problem.start.firstRun options problem.idleColumns).last.basis
      (List.range' (problem.dimension + problem.constraints.length)
        (problem.start.lackingRows options.tolerance).length)
      (problem.start.firstRun options problem.idleColumns).last.basis.length
      (problem.cleared options) :=
  Held.all _ _ _ _

/-- A dropped line holds an artificial column until the end, which was made for an owner. -/
theorem exists_of_mem_dropped (h : problem.fault? = none) {line : ℕ}
    (hline : line ∈ (problem.cleared options).dropped) :
    ∃ k, ∃ hk : k < (problem.start.lackingRows options.tolerance).length,
      (problem.start.firstRun options problem.idleColumns).last.basis.getD line 0
          = problem.dimension + problem.constraints.length + k ∧
        (problem.cleared options).position.basis.getD line 0
          = problem.dimension + problem.constraints.length + k ∧
        (problem.start.prepare options.tolerance).owner
            ((problem.start.firstRun options problem.idleColumns).last.basis.getD line 0)
          = (problem.start.lackingRows options.tolerance)[k] := by
  have hheld := held_cleared problem options
  obtain ⟨hle, hlt⟩ := List.mem_range'_1.mp (hheld.artificial line hline)
  obtain ⟨k, hcolumn⟩ := Nat.exists_eq_add_of_le hle
  have hk : k < (problem.start.lackingRows options.tolerance).length := by omega
  refine ⟨k, hk, hcolumn, (hheld.dropped_eq line hline).trans hcolumn, ?_⟩
  rw [hcolumn, owner_prepare h hk]

theorem exists_of_mem_owners (h : problem.fault? = none) {i : ℕ}
    (hi : i ∈ problem.owners options) :
    ∃ line ∈ (problem.cleared options).dropped,
      ∃ k, ∃ hk : k < (problem.start.lackingRows options.tolerance).length,
        (problem.cleared options).position.basis.getD line 0
            = problem.dimension + problem.constraints.length + k ∧
          (problem.start.lackingRows options.tolerance)[k] = i := by
  obtain ⟨line, hline, rfl⟩ := List.mem_map.mp hi
  obtain ⟨k, hk, -, hcolumn, howner⟩ := exists_of_mem_dropped h hline
  exact ⟨line, hline, k, hk, hcolumn, howner.symm⟩

theorem mem_lackingRows_of_mem_owners (h : problem.fault? = none) {i : ℕ}
    (hi : i ∈ problem.owners options) : i ∈ problem.start.lackingRows options.tolerance := by
  obtain ⟨-, -, k, hk, -, rfl⟩ := exists_of_mem_owners h hi
  exact List.getElem_mem hk

/-- An artificial column is basic when all lines have been cleared, or it takes up the gap of a row
that is no owner. -/
theorem balanced_eq_zero_of_notMem (h : problem.fault? = none) {x : ℕ → ℚ}
    (hx : ∀ i < problem.constraints.length, i ∉ problem.owners options →
      gap (problem.start.tableau.line i) x = 0) {j : ℕ}
    (hj : j < problem.dimension + problem.constraints.length
      + (problem.start.lackingRows options.tolerance).length)
    (hle : problem.dimension + problem.constraints.length ≤ j)
    (hbasis : j ∉ (problem.cleared options).position.basis) :
    problem.balanced options.tolerance x j = 0 := by
  obtain ⟨k, rfl⟩ := Nat.exists_eq_add_of_le hle
  have hk : k < (problem.start.lackingRows options.tolerance).length := by omega
  have howner : (problem.start.lackingRows options.tolerance)[k] ∉ problem.owners options := by
    intro hmem
    obtain ⟨line, -, l, hl, hcolumn, heq⟩ := exists_of_mem_owners h hmem
    have hlk : l = k := (problem.start.nodup_lackingRows options.tolerance).getElem_inj_iff.mp heq
    subst hlk
    have hpos := dimension_pos h
    have hlt : line < (problem.cleared options).position.basis.length :=
      lt_length_of_getD_ne_zero (by omega)
    rw [← hcolumn, List.getD_eq_getElem _ _ hlt] at hbasis
    exact hbasis (List.getElem_mem hlt)
  rw [balanced_add h hk, hx _ (lt_of_mem_lackingRows (List.getElem_mem hk)) howner, mul_zero,
    neg_zero]

variable (h : problem.fault? = none) (htol : 0 ≤ options.tolerance)
  (hlacks : problem.start.lackingRows options.tolerance ≠ [])

include h htol hlacks

/-- No two dropped lines have the same owner. -/
theorem nodup_owners : (problem.owners options).Nodup := by
  have hlast := regular_last_firstRun h htol hlacks
  have hheld := held_cleared problem options
  apply List.Nodup.map_on _ hheld.nodup
  intro a ha b hb heq
  obtain ⟨k, hk, hka, -, howner⟩ := exists_of_mem_dropped h ha
  obtain ⟨l, hl, hlb, -, howner'⟩ := exists_of_mem_dropped h hb
  have hkl : k = l := (problem.start.nodup_lackingRows options.tolerance).getElem_inj_iff.mp
    (howner.symm.trans (heq.trans howner'))
  subst hkl
  have hbasis := hka.trans hlb.symm
  rw [List.getD_eq_getElem _ _ (hheld.dropped_lt a ha),
    List.getD_eq_getElem _ _ (hheld.dropped_lt b hb)] at hbasis
  exact hlast.canonical.nodup.getElem_inj_iff.mp hbasis

omit htol in
/-- If no artificial column enters in the first phase, each dropped line has held its artificial
column from the beginning and is its own owner. -/
theorem owners_eq_dropped
    (hentering : ∀ pivot ∈ (problem.start.firstRun options problem.idleColumns).pivots,
      pivot.entering ∉ List.range' (problem.dimension + problem.constraints.length)
        (problem.start.lackingRows options.tolerance).length) :
    problem.owners options = (problem.cleared options).dropped := by
  have hheld := held_cleared problem options
  conv_rhs => rw [← List.map_id (problem.cleared options).dropped]
  apply List.map_congr_left
  intro line hline
  obtain ⟨k, hk, hcolumn, -, howner⟩ := exists_of_mem_dropped h hline
  have hstays : (problem.start.firstRun options problem.idleColumns).last.basis.getD line 0
      = (problem.auxiliary options.tolerance).basis.getD line 0 := by
    have hmem := hheld.artificial line hline
    rw [firstRun_eq h hlacks] at hentering hmem ⊢
    exact Position.getD_basis_last_run (regular_auxiliary h).canonical.length_eq.ge _ _ _ hentering
      line hmem
  rw [hstays] at hcolumn
  have hlt : line < (problem.auxiliary options.tolerance).basis.length := by
    have hpos := dimension_pos h
    exact lt_length_of_getD_ne_zero (by omega)
  rw [List.getD_eq_getElem _ _ hlt] at hcolumn
  rw [id, howner]
  rcases getElem_basis_auxiliary hlt with ⟨-, l, hl, hline, hown⟩ | ⟨-, hslack⟩
  · obtain rfl : k = l := by omega
    exact hline
  · rw [length_basis_auxiliary] at hlt
    omega

/-- A point without a gap in the other rows has none in the owners of the dropped lines: their
artificial columns take up what they lack, and these are zero. -/
theorem gap_eq_zero_of_owners (hd : problem.Discerned options.tolerance)
    (hsum : ¬ problem.start.SumLeft options problem.idleColumns) {x : ℕ → ℚ}
    (hx : ∀ i < problem.constraints.length, i ∉ problem.owners options →
      gap (problem.start.tableau.line i) x = 0) {i : ℕ} (hi : i ∈ problem.owners options) :
    gap (problem.start.tableau.line i) x = 0 := by
  have hstill := still_firstRun h htol hlacks hd hsum
  have hauxiliary : (problem.auxiliary options.tolerance).tableau.SolvedBy
      (problem.balanced options.tolerance x) :=
    solvedBy_balanced h fun i hi hmem =>
      hx i hi fun howner => hmem (mem_lackingRows_of_mem_owners h howner)
  have hsolved : (problem.cleared options).position.tableau.SolvedBy
      (problem.balanced options.tolerance x) :=
    (hstill.agrees.solvedBy_iff _).mp
      (((restates_last_firstRun h htol hlacks).agrees.solvedBy_iff _).mp hauxiliary)
  obtain ⟨line, hline, k, hk, hcolumn, rfl⟩ := exists_of_mem_owners h hi
  have hzero := hstill.eq_zero_of_dropped hsolved
    (fun _ hj hle hbasis => balanced_eq_zero_of_notMem h hx hj hle hbasis) hline
    (hcolumn ▸ Nat.le_add_right _ k)
  rw [hcolumn, balanced_add h hk, neg_eq_zero] at hzero
  exact (mul_eq_zero.mp hzero).resolve_left (Position.rowSign_ne_zero _ _ _)

end Owners

end Problem

end SimplexMethod
