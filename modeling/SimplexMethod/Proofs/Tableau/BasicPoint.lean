import SimplexMethod.Proofs.Tableau.Separated

/-!
# Canonical positions and their basic points

The basic point of a canonical position takes the right-hand sides in the basic columns and is
zero elsewhere. It is the only solution that is zero outside the basis. Letting one further column
grow while the equations stay satisfied gives a direction, along which the objective grows by the
cost of that column. A column that is zero in every line may grow alone, so it is zero in every
tableau that agrees with the given one.
-/

namespace SimplexMethod

namespace Position

variable {p : Position ℚ} {width : ℕ}

/-- The point that takes the given value of each row in the basic column of that row. -/
def atBasis (p : Position ℚ) (value : ℕ → ℚ) : ℕ → ℚ := fun j =>
  if j ∈ p.basis then value (p.basis.idxOf j) else 0

/-- The point that takes the right-hand sides in the basic columns. -/
def point (p : Position ℚ) : ℕ → ℚ :=
  p.atBasis fun row => rhs (p.tableau.line row)

/-- How the basic columns change when the given column grows from zero. -/
def direction (p : Position ℚ) (column : ℕ) : ℕ → ℚ := fun j =>
  (if j = column then 1 else 0) + -1 * p.atBasis (fun row => p.tableau.entry row column) j

theorem atBasis_getElem (h : p.basis.Nodup) (value : ℕ → ℚ) {i : ℕ} (hi : i < p.basis.length) :
    p.atBasis value p.basis[i] = value i := by
  rw [atBasis, if_pos (List.getElem_mem hi), h.idxOf_getElem i hi]

theorem atBasis_of_notMem (value : ℕ → ℚ) {j : ℕ} (h : j ∉ p.basis) : p.atBasis value j = 0 :=
  if_neg h

theorem point_getElem (h : p.basis.Nodup) {i : ℕ} (hi : i < p.basis.length) :
    p.point p.basis[i] = rhs (p.tableau.line i) :=
  atBasis_getElem h _ hi

theorem point_of_notMem {j : ℕ} (h : j ∉ p.basis) : p.point j = 0 :=
  atBasis_of_notMem _ h

/-- Where the basic columns from `width` on are zero, so is the basic point. -/
theorem BasicInRows.point_eq_zero (h : p.BasicInRows)
    (hzero : ∀ i < p.tableau.rows.length, width ≤ p.basis.getD i 0 → rhs (p.tableau.line i) = 0)
    {j : ℕ} (hj : width ≤ j) : p.point j = 0 := by
  by_cases hmem : j ∈ p.basis
  · obtain ⟨i, hi, rfl⟩ := List.mem_iff_getElem.mp hmem
    rw [point_getElem h.nodup hi]
    apply hzero i (h.length_eq ▸ hi)
    rwa [List.getD_eq_getElem _ _ hi]
  · exact point_of_notMem hmem

theorem direction_getElem (h : p.basis.Nodup) {column : ℕ} (hc : column ∉ p.basis) {i : ℕ}
    (hi : i < p.basis.length) : p.direction column p.basis[i] = -p.tableau.entry i column := by
  have hne : p.basis[i] ≠ column := fun heq => hc (heq ▸ List.getElem_mem hi)
  rw [direction, if_neg hne, atBasis_getElem h _ hi]
  ring

theorem direction_self {column : ℕ} (hc : column ∉ p.basis) : p.direction column column = 1 := by
  rw [direction, if_pos rfl, atBasis_of_notMem _ hc]
  ring

theorem direction_of_notMem {column j : ℕ} (hj : j ∉ p.basis) (hne : j ≠ column) :
    p.direction column j = 0 := by
  rw [direction, if_neg hne, atBasis_of_notMem _ hj]
  ring

theorem formAt_unit {row : List ℚ} {column : ℕ} (hc : column < row.length - 1) :
    formAt row (fun j => if j = column then 1 else 0) = row.getD column 0 := by
  simp only [formAt, mul_ite, mul_one, mul_zero]
  rw [Finset.sum_ite_eq', if_pos (Finset.mem_range.mpr hc)]

theorem formAt_direction (row : List ℚ) (column : ℕ) :
    formAt row (p.direction column)
      = formAt row (fun j => if j = column then 1 else 0)
        + -1 * formAt row (p.atBasis fun row => p.tableau.entry row column) :=
  formAt_add_mul _ _ _ _

namespace Canonical

theorem entry_getElem (h : p.Canonical) {i j : ℕ} (hi : i < p.tableau.height)
    (hj : j < p.basis.length) :
    p.tableau.entry i p.basis[j] = if i = j then 1 else 0 := by
  rcases Nat.lt_succ_iff_lt_or_eq.mp hi with hlt | rfl
  · rw [Tableau.entry, p.tableau.line_of_lt hlt]
    exact h.unit i j hlt hj
  · have hne : p.tableau.rows.length ≠ j := by
      have hlen := h.length_eq
      omega
    rw [Tableau.entry, Tableau.line_length, if_neg hne]
    exact h.cleared _ (List.getElem_mem hj)

/-- Unit columns are pairwise distinct, so distinctness need not be asked for. -/
theorem of_entry (hlen : p.basis.length = p.tableau.rows.length)
    (hlt : ∀ column ∈ p.basis, column + 1 < p.tableau.width)
    (hunit : ∀ i j, i < p.tableau.height → ∀ hj : j < p.basis.length,
      p.tableau.entry i p.basis[j] = if i = j then 1 else 0) : p.Canonical where
  length_eq := hlen
  lt_width := hlt
  nodup := by
    apply List.nodup_iff_injective_getElem.mpr
    intro a b hab
    have ha : (a : ℕ) < p.tableau.height := Nat.lt_succ_of_lt (hlen ▸ a.isLt)
    have hone := hunit a a ha a.isLt
    have hother := hunit a b ha b.isLt
    rw [if_pos rfl] at hone
    rw [← show p.basis[(a : ℕ)] = p.basis[(b : ℕ)] from hab, hone] at hother
    by_contra hne
    rw [if_neg (fun h => hne (Fin.ext h))] at hother
    exact one_ne_zero hother
  unit := by
    intro i j hi hj
    have h := hunit i j (Nat.lt_succ_of_lt hi) hj
    rwa [Tableau.entry, p.tableau.line_of_lt hi] at h
  cleared := by
    intro column hc
    obtain ⟨j, hj, rfl⟩ := List.mem_iff_getElem.mp hc
    have h := hunit p.tableau.rows.length j (Nat.lt_succ_self _) hj
    have hne : p.tableau.rows.length ≠ j := by omega
    rwa [Tableau.entry, Tableau.line_length, if_neg hne] at h

/-- Being canonical is a matter of finitely many entries. -/
theorem iff_entry : p.Canonical ↔ p.basis.length = p.tableau.rows.length ∧
    (∀ column ∈ p.basis, column + 1 < p.tableau.width) ∧
      ∀ i < p.tableau.height, ∀ j, ∀ hj : j < p.basis.length,
        p.tableau.entry i p.basis[j] = if i = j then 1 else 0 :=
  ⟨fun h => ⟨h.length_eq, h.lt_width, fun _ hi _ hj => h.entry_getElem hi hj⟩,
    fun ⟨hlen, hlt, hunit⟩ => of_entry hlen hlt fun i j hi hj => hunit i hi j hj⟩

instance : Decidable p.Canonical :=
  decidable_of_iff _ iff_entry.symm

theorem lt_of_mem (h : p.Canonical) (hw : p.tableau.HasWidth (width + 1)) {column : ℕ}
    (hc : column ∈ p.basis) : column < width := by
  have hlt := h.lt_width column hc
  rw [hw.width_eq] at hlt
  omega

/-- The columns of a canonical basis are zero outside their own rows. -/
theorem separated (h : p.Canonical) (hw : p.tableau.HasWidth (width + 1)) :
    p.Separated width where
  hasWidth := hw
  length_basis := h.length_eq
  lt_width := fun _ hc => h.lt_of_mem hw hc
  nodup := h.nodup
  entry_eq_zero := by
    intro i hi j hj hij
    rw [List.getD_eq_getElem _ _ hj, h.entry_getElem hi hj, if_neg hij]

/-- Exchanging a basic column at a nonzero entry keeps a position canonical. -/
theorem pivot (h : p.Canonical) (hw : p.tableau.HasWidth (width + 1)) {row column : ℕ}
    (hr : row < p.tableau.rows.length) (hc : column < width)
    (hne : p.tableau.entry row column ≠ 0) :
    Canonical ⟨p.tableau.pivot row column, p.basis.set row column⟩ := by
  have hseparated := h.separated hw
  have hframed := hseparated.toFramed.exchange hr hc
  apply of_entry hframed.length_basis
  · intro b hb
    rw [hframed.hasWidth.width_eq]
    exact Nat.succ_lt_succ (hframed.lt_width b hb)
  · intro i j hi hj
    replace hi : i < p.tableau.height := by simpa using hi
    replace hj : j < p.basis.length := by simpa using hj
    change (p.tableau.pivot row column).entry i (p.basis.set row column)[j] = _
    rw [List.getElem_set]
    by_cases hrj : row = j
    · subst hrj
      rw [if_pos rfl, Tableau.entry_pivot_self hw (Nat.lt_succ_of_lt hr) hne]
    · have hstays := hseparated.entry_exchange_of_ne hr column hj hrj i
      rw [List.getD_eq_getElem _ _ hj] at hstays
      rw [if_neg hrj, hstays, h.entry_getElem hi hj]

/-- A constraint row reads a point that is zero outside the basis in its basic column only. -/
theorem formAt_line (h : p.Canonical) (hw : p.tableau.HasWidth (width + 1)) {x : ℕ → ℚ}
    (hx : ∀ j < width, j ∉ p.basis → x j = 0) {i : ℕ} (hi : i < p.basis.length) :
    formAt (p.tableau.line i) x = x p.basis[i] := by
  have hrow : i < p.tableau.rows.length := h.length_eq ▸ hi
  rw [(h.separated hw).formAt_line hx hrow, List.getD_eq_getElem _ _ hi,
    h.entry_getElem (Nat.lt_succ_of_lt hrow) hi, if_pos rfl, one_mul]

/-- The objective row does not read a point that is zero outside the basis. -/
theorem formAt_objective (h : p.Canonical) (hw : p.tableau.HasWidth (width + 1)) {x : ℕ → ℚ}
    (hx : ∀ j < width, j ∉ p.basis → x j = 0) : formAt p.tableau.objective x = 0 :=
  (h.separated hw).formAt_objective hx

theorem solvedBy_point (h : p.Canonical) (hw : p.tableau.HasWidth (width + 1)) :
    p.tableau.SolvedBy p.point := by
  rw [Tableau.solvedBy_iff]
  intro i hi
  rw [gap, h.formAt_line hw (fun _ _ => point_of_notMem) (h.length_eq ▸ hi),
    point_getElem h.nodup, sub_self]

theorem gap_objective_point (h : p.Canonical) (hw : p.tableau.HasWidth (width + 1)) :
    gap p.tableau.objective p.point = -rhs p.tableau.objective := by
  rw [gap, h.formAt_objective hw (fun _ _ => point_of_notMem), zero_sub]

/-- The basic point is the only solution that is zero outside the basis. -/
theorem eq_point (h : p.Canonical) (hw : p.tableau.HasWidth (width + 1)) {x : ℕ → ℚ}
    (hs : p.tableau.SolvedBy x) (hx : ∀ j < width, j ∉ p.basis → x j = 0) :
    ∀ j < width, x j = p.point j := by
  intro j hj
  by_cases hb : j ∈ p.basis
  · obtain ⟨i, hi, rfl⟩ := List.mem_iff_getElem.mp hb
    have hgap := Tableau.solvedBy_iff.mp hs i (h.length_eq ▸ hi)
    rw [gap, h.formAt_line hw hx hi] at hgap
    rw [point_getElem h.nodup hi]
    linarith
  · rw [hx j hj hb, point_of_notMem hb]

/-- Along a direction all equations stay satisfied. -/
theorem formAt_row_direction (h : p.Canonical) (hw : p.tableau.HasWidth (width + 1))
    {column : ℕ} (hc : column < width) {row : List ℚ} (hr : row ∈ p.tableau.rows) :
    formAt row (p.direction column) = 0 := by
  obtain ⟨i, hi, rfl⟩ := Tableau.mem_rows_iff.mp hr
  have hib : i < p.basis.length := h.length_eq ▸ hi
  have hlen := hw.length_line (Nat.lt_succ_of_lt hi)
  rw [formAt_direction, h.formAt_line hw (fun _ _ => atBasis_of_notMem _) hib,
    atBasis_getElem h.nodup _ hib, formAt_unit (by omega), Tableau.entry]
  ring

/-- Along a direction the objective grows by the cost of the column. -/
theorem formAt_objective_direction (h : p.Canonical) (hw : p.tableau.HasWidth (width + 1))
    {column : ℕ} (hc : column < width) :
    formAt p.tableau.objective (p.direction column) = p.tableau.objective.getD column 0 := by
  have hlen : p.tableau.objective.length = width + 1 := hw.width_eq
  rw [formAt_direction, h.formAt_objective hw (fun _ _ => atBasis_of_notMem _),
    formAt_unit (by omega)]
  ring

end Canonical

end Position

section Vanishing

variable {t u : Tableau ℚ} {width : ℕ}

/-- An entry is what its line reads at the unit point of its column. -/
theorem Tableau.entry_eq_formAt (h : t.HasWidth (width + 1)) {i j : ℕ} (hi : i < t.height)
    (hj : j < width) :
    t.entry i j = formAt (t.line i) (fun k => if k = j then 1 else 0) := by
  rw [Position.formAt_unit (by rw [h.length_line hi]; exact hj), entry]

/-- Columns that are zero stay so in a tableau that agrees and has a solution: moving by one along
such a column leads from a solution to a solution. -/
theorem Tableau.Agrees.vanishes (h : t.Agrees u) (ht : t.HasWidth (width + 1))
    (hu : u.HasWidth (width + 1)) {x : ℕ → ℚ} (hx : t.SolvedBy x) {columns : List ℕ}
    (hlt : ∀ j ∈ columns, j < width) (hz : t.Vanishes columns) : u.Vanishes columns := by
  intro j hj i hi
  have hrows : ∀ row ∈ t.rows, formAt row (fun k => if k = j then 1 else 0) = 0 := by
    intro row hr
    obtain ⟨k, hk, rfl⟩ := mem_rows_iff.mp hr
    rw [← entry_eq_formAt ht (Nat.lt_succ_of_lt hk) (hlt j hj)]
    exact hz j hj k (Nat.lt_succ_of_lt hk)
  have hmoved : t.SolvedBy (fun k => x k + 1 * if k = j then 1 else 0) := by
    intro row hr
    rw [gap_add_mul, hx row hr, hrows row hr, mul_zero, add_zero]
  rw [entry_eq_formAt hu hi (hlt j hj)]
  rcases Nat.lt_succ_iff_lt_or_eq.mp hi with hrow | rfl
  · have hstart := Tableau.solvedBy_iff.mp ((h.solvedBy_iff x).mp hx) i hrow
    have hend := Tableau.solvedBy_iff.mp ((h.solvedBy_iff _).mp hmoved) i hrow
    rwa [gap_add_mul, hstart, one_mul, zero_add] at hend
  · have hobjective := entry_eq_formAt ht (Nat.lt_succ_self t.rows.length) (hlt j hj)
    rw [line_length] at hobjective
    rw [line_length, ← h.formAt_eq hx hrows, ← hobjective]
    exact hz j hj _ (Nat.lt_succ_self _)

end Vanishing

section Solution

private theorem getD_foldl_set (columns : List ℕ) (h : columns.Nodup) (value : ℕ → ℚ)
    (first : ℕ) (values : List ℚ) {j : ℕ} (hj : j < values.length) :
    ((columns.zipIdx first).foldl (fun values (column, row) => values.set column (value row))
        values).getD j 0
      = if j ∈ columns then value (first + columns.idxOf j) else values.getD j 0 := by
  induction columns generalizing first values with
  | nil => simp
  | cons column columns ih =>
    have hnotMem := (List.nodup_cons.mp h).1
    rw [List.zipIdx_cons, List.foldl_cons,
      ih (List.nodup_cons.mp h).2 _ _ (by simpa using hj)]
    by_cases hcol : j = column
    · subst hcol
      rw [if_neg hnotMem, if_pos List.mem_cons_self, List.idxOf_cons_self]
      simp [List.getD, hj]
    · have hne : column ≠ j := fun heq => hcol heq.symm
      have hget : (values.set column (value first)).getD j 0 = values.getD j 0 := by
        simp [List.getD, hne]
      have hmem : j ∈ column :: columns ↔ j ∈ columns := by simp [hcol]
      rw [hget, List.idxOf_cons_ne _ hne]
      simp only [hmem, Nat.succ_eq_add_one, Nat.add_assoc, Nat.add_comm 1]

theorem Position.length_solution (p : Position ℚ) (n : ℕ) : (p.solution n).length = n := by
  have hfold : ∀ (places : List (ℕ × ℕ)) (values : List ℚ),
      (places.foldl (fun values (column, row) => values.set column (rhs (p.tableau.line row)))
        values).length = values.length := by
    intro places
    induction places with
    | nil => intro values; rfl
    | cons place places ih =>
      intro values
      rw [List.foldl_cons, ih]
      simp
  rw [Position.solution, hfold, List.length_replicate]

/-- The solution read off a position is its basic point. -/
theorem Position.getD_solution {p : Position ℚ} (h : p.basis.Nodup) {n j : ℕ} (hj : j < n) :
    (p.solution n).getD j 0 = p.point j := by
  rw [solution, getD_foldl_set p.basis h (fun row => rhs (p.tableau.line row)) 0 _ (by simpa)]
  simp [point, atBasis, List.getD, hj]

end Solution

end SimplexMethod
