import SimplexMethod.Proofs.Phases.Auxiliary
import SimplexMethod.Proofs.Phases.Freeing

/-!
# Taking out the artificial columns

Each exchange of a basic artificial column is a pivot, which keeps the system. Where the basic
artificial columns are zero, the exchanges are degenerate and do not move the basic point; and where
the tolerance takes no entry for zero by mistake, a row that offers nothing to exchange is zero in
all original columns and states nothing. So the reduced tableau states the equations of the full one
on points without artificial part.
-/

namespace SimplexMethod

section Exchange

variable {t : Tableau ℚ} {row width : ℕ} {tolerance : ℚ}

theorem Tableau.tolerance_lt_of_exchange? {column : ℕ}
    (h : t.exchange? row width tolerance = some column) : tolerance < |t.entry row column| := by
  have hentry := (List.find?_range_eq_some.mp h).1
  rwa [decide_eq_true_iff, magnitude_eq_abs] at hentry

theorem Tableau.abs_entry_le_of_exchange? (h : t.exchange? row width tolerance = none) :
    ∀ j < width, |t.entry row j| ≤ tolerance := by
  intro j hj
  have hentry := List.find?_eq_none.mp h j (List.mem_range.mpr hj)
  rwa [decide_eq_true_iff, magnitude_eq_abs, not_lt] at hentry

end Exchange

/-- The state of the removal after the rows before `done` have been cleared. -/
structure Clearing (t : Tableau ℚ) (width count : ℕ) (barred : List ℕ) (done : ℕ)
    (state : Reduced ℚ) : Prop extends Freed width count t.rows.length done state where
  regular : state.position.Regular (width + count) barred
  vanishes : state.position.tableau.Vanishes barred
  agrees : t.Agrees state.position.tableau

namespace Clearing

variable {t : Tableau ℚ} {width count done : ℕ} {barred : List ℕ} {state : Reduced ℚ}

theorem keep (h : Clearing t width count barred done state)
    (hbasic : state.position.basis.getD done 0 < width) :
    Clearing t width count barred (done + 1) state :=
  ⟨h.toFreed.keep hbasic, h.regular, h.vanishes, h.agrees⟩

theorem drop (h : Clearing t width count barred done state) :
    Clearing t width count barred (done + 1)
      { state with dropped := state.dropped ++ [done] } :=
  ⟨h.toFreed.drop, h.regular, h.vanishes, h.agrees⟩

theorem exchange (h : Clearing t width count barred done state) (hdone : done < t.rows.length)
    {column : ℕ} (hc : column < width)
    (hne : state.position.tableau.entry done column ≠ 0) :
    Clearing t width count barred (done + 1)
      { state with
        position :=
          ⟨state.position.tableau.pivot done column, state.position.basis.set done column⟩ } := by
  have hrow : done < state.position.tableau.rows.length := h.length_rows ▸ hdone
  have hheight : done < state.position.tableau.height := Nat.lt_succ_of_lt hrow
  have hw := h.regular.hasWidth
  refine ⟨h.toFreed.exchange hdone hc, ⟨hw.pivot hheight column, ?_, ?_⟩, ?_, ?_⟩
  · exact h.regular.canonical.pivot hw hrow (by omega) hne
  · intro b hb
    rcases List.mem_or_eq_of_mem_set hb with hold | rfl
    · exact h.regular.free b hold
    · exact fun hbarred => hne (h.vanishes b hbarred done hheight)
  · exact h.vanishes.pivot hw hheight column
  · exact h.agrees.trans (Tableau.agrees_pivot hw hrow hne)

/-- Clearing one row keeps it cleared or drops it, or exchanges its basic column. -/
theorem step_cases (h : Clearing t width count barred done state) (hdone : done < t.rows.length)
    (tolerance : ℚ) {motive : Reduced ℚ → Prop}
    (keep : state.position.basis.getD done 0 < width → motive state)
    (drop : width ≤ state.position.basis.getD done 0 →
      (∀ j < width, |state.position.tableau.entry done j| ≤ tolerance) →
      motive { state with dropped := state.dropped ++ [done] })
    (exchange : ∀ column < width, width ≤ state.position.basis.getD done 0 →
      tolerance < |state.position.tableau.entry done column| →
      motive { state with
        position :=
          ⟨state.position.tableau.pivot done column, state.position.basis.set done column⟩ }) :
    motive (Reduced.clearRow (List.range' width count) width tolerance state done) := by
  have hlt := h.framed.getD_basis_lt (h.length_rows ▸ hdone)
  by_cases hmem : state.position.basis.getD done 0 ∈ List.range' width count
  · have hbasic := (List.mem_range'_1.mp hmem).1
    cases hx : state.position.tableau.exchange? done width tolerance with
    | none =>
      rw [Reduced.clearRow_of_none hmem hx]
      exact drop hbasic (Tableau.abs_entry_le_of_exchange? hx)
    | some column =>
      rw [Reduced.clearRow_of_some hmem hx]
      exact exchange column (Tableau.exchange?_lt hx) hbasic (Tableau.tolerance_lt_of_exchange? hx)
  · rw [Reduced.clearRow_of_notMem hmem]
    apply keep
    by_contra hle
    exact hmem (List.mem_range'_1.mpr ⟨not_lt.mp hle, hlt⟩)

/-- Clearing one row. -/
theorem step (h : Clearing t width count barred done state) (hdone : done < t.rows.length)
    {tolerance : ℚ} (htol : 0 ≤ tolerance) :
    Clearing t width count barred (done + 1)
      (Reduced.clearRow (List.range' width count) width tolerance state done) := by
  apply h.step_cases hdone tolerance
  · exact h.keep
  · exact fun _ _ => h.drop
  · exact fun _ hc _ hlt => h.exchange hdone hc (abs_pos.mp (htol.trans_lt hlt))

end Clearing

/-- A removal that leaves the basic point where it is. The rows that follow still have right-hand
side zero if their basic column is artificial, and a row that was dropped says nothing. -/
structure Clearing.Still (t : Tableau ℚ) (width count : ℕ) (barred : List ℕ) (done : ℕ)
    (state : Reduced ℚ) : Prop extends Clearing t width count barred done state where
  rhs_eq : ∀ i < t.rows.length, rhs (state.position.tableau.line i) = rhs (t.line i)
  pending : ∀ i < t.rows.length, done ≤ i → width ≤ state.position.basis.getD i 0 →
    rhs (state.position.tableau.line i) = 0
  dropped_zero : ∀ row ∈ state.dropped,
    (∀ j < width, state.position.tableau.entry row j = 0) ∧
      rhs (state.position.tableau.line row) = 0

namespace Clearing.Still

variable {t : Tableau ℚ} {width count done : ℕ} {barred : List ℕ} {state : Reduced ℚ}

theorem keep (h : Still t width count barred done state)
    (hbasic : state.position.basis.getD done 0 < width) :
    Still t width count barred (done + 1) state where
  toClearing := h.toClearing.keep hbasic
  rhs_eq := h.rhs_eq
  pending := fun i hi hle => h.pending i hi (Nat.le_of_succ_le hle)
  dropped_zero := h.dropped_zero

theorem drop (h : Still t width count barred done state) (hdone : done < t.rows.length)
    (hbasic : width ≤ state.position.basis.getD done 0)
    (hzero : ∀ j < width, state.position.tableau.entry done j = 0) :
    Still t width count barred (done + 1)
      { state with dropped := state.dropped ++ [done] } where
  toClearing := h.toClearing.drop
  rhs_eq := h.rhs_eq
  pending := fun i hi hle => h.pending i hi (Nat.le_of_succ_le hle)
  dropped_zero := by
    intro row hr
    rcases List.mem_append.mp hr with hold | hnew
    · exact h.dropped_zero row hold
    · rw [List.mem_singleton.mp hnew]
      exact ⟨hzero, h.pending done hdone le_rfl hbasic⟩

theorem exchange (h : Still t width count barred done state) (hdone : done < t.rows.length)
    (hbasic : width ≤ state.position.basis.getD done 0) {column : ℕ} (hc : column < width)
    (hne : state.position.tableau.entry done column ≠ 0) :
    Still t width count barred (done + 1)
      { state with
        position :=
          ⟨state.position.tableau.pivot done column, state.position.basis.set done column⟩ } := by
  have hheight : done < state.position.tableau.height :=
    Nat.lt_succ_of_lt (h.length_rows ▸ hdone)
  have hw := h.regular.hasWidth
  have hrhs : ∀ i < t.rows.length,
      rhs ((state.position.tableau.pivot done column).line i)
        = rhs (state.position.tableau.line i) :=
    fun i hi => Tableau.rhs_line_pivot_of_eq_zero hw hheight (h.pending done hdone le_rfl hbasic)
      column (Nat.lt_succ_of_lt (h.length_rows ▸ hi))
  refine ⟨h.toClearing.exchange hdone hc hne, ?_, ?_, ?_⟩
  · intro i hi
    exact (hrhs i hi).trans (h.rhs_eq i hi)
  · intro i hi hle hart
    change width ≤ (state.position.basis.set done column).getD i 0 at hart
    rw [getD_set_of_ne (Nat.ne_of_lt hle)] at hart
    exact (hrhs i hi).trans (h.pending i hi (Nat.le_of_succ_le hle) hart)
  · intro row hr
    have hlt := h.dropped_lt row hr
    obtain ⟨hentries, hbound⟩ := h.dropped_zero row hr
    constructor
    · intro j hj
      change (state.position.tableau.pivot done column).entry row j = 0
      rw [Tableau.entry_pivot hw hheight, if_neg hlt.ne, hentries j hj, hentries column hc]
      simp
    · exact (hrhs row (hlt.trans hdone)).trans hbound

/-- Clearing one row, where the tolerance takes no entry for zero by mistake. -/
theorem step (h : Still t width count barred done state) (hdone : done < t.rows.length)
    {tolerance : ℚ} (htol : 0 ≤ tolerance) (hd : t.RowsDiscerned tolerance (width + count)) :
    Still t width count barred (done + 1)
      (Reduced.clearRow (List.range' width count) width tolerance state done) := by
  have hdiscerned := hd _ (h.regular.restates h.agrees) done (h.length_rows ▸ hdone)
  apply h.step_cases hdone tolerance
  · exact h.keep
  · exact fun hbasic hle => h.drop hdone hbasic fun j hj => hdiscerned j (by omega) (hle j hj)
  · exact fun _ hc hbasic hlt => h.exchange hdone hbasic hc (abs_pos.mp (htol.trans_lt hlt))

end Clearing.Still

section Result

theorem getD_cutTo {width : ℕ} {row : List ℚ} (h : width < row.length) {j : ℕ} (hj : j < width) :
    (cutTo width row).getD j 0 = row.getD j 0 := by
  have hlen : (row.take width).length = width := by simp [h.le]
  rw [cutTo, List.getD_append _ _ _ _ (hlen.symm ▸ hj), List.getD, List.getD, List.getElem?_take,
    if_pos hj]

theorem Reduced.nodup_kept (state : Reduced ℚ) : state.kept.Nodup :=
  List.nodup_range.filter _

/-- The point without its part from the given column on. -/
def cutAt (width : ℕ) (x : ℕ → ℚ) : ℕ → ℚ := fun j =>
  if j < width then x j else 0

theorem cutAt_eq_self {width : ℕ} {x : ℕ → ℚ} (h : ∀ j, width ≤ j → x j = 0) :
    cutAt width x = x := by
  funext j
  rw [cutAt]
  split
  · rfl
  · rename_i hj
    exact (h j (not_lt.mp hj)).symm

namespace Clearing

variable {t : Tableau ℚ} {width count : ℕ} {barred : List ℕ} {state : Reduced ℚ}

variable (h : Clearing t width count barred t.rows.length state)

include h

theorem length_line {row : ℕ} (hr : row < t.rows.length) :
    (state.position.tableau.line row).length = width + count + 1 :=
  h.regular.hasWidth.length_line (Nat.lt_succ_of_lt (h.length_rows ▸ hr))

theorem basicInRows_left : (state.left width).BasicInRows where
  length_eq := by simp [Reduced.left, Tableau.restrict, Reduced.keptBasis]
  nodup := by
    apply List.Nodup.map_on _ state.nodup_kept
    intro a ha b hb heq
    rw [List.getD_eq_getElem _ _ (Reduced.mem_kept.mp ha).1,
      List.getD_eq_getElem _ _ (Reduced.mem_kept.mp hb).1] at heq
    exact (List.Nodup.getElem_inj_iff h.regular.canonical.nodup).mp heq
  lt_width := by
    intro column hc
    obtain ⟨row, hr, rfl⟩ := List.mem_map.mp hc
    rw [h.framed_left.hasWidth.width_eq]
    exact Nat.succ_lt_succ (h.getD_basis_lt hr)
  unit := by
    intro i j hi hj
    have hik : i < state.kept.length := by simpa [Reduced.left, Tableau.restrict] using hi
    have hjk : j < state.kept.length := by simpa [Reduced.left, Reduced.keptBasis] using hj
    have hrow : (state.left width).tableau.rows[i]
        = cutTo width (state.position.tableau.line state.kept[i]) := by
      simp [Reduced.left, Tableau.restrict]
    have hcolumn : (state.left width).basis[j]
        = state.position.basis.getD state.kept[j] 0 := by
      simp [Reduced.left, Reduced.keptBasis]
    have hi' := h.lt_of_mem_kept (List.getElem_mem hik)
    rw [hrow, hcolumn, getD_cutTo (by rw [h.length_line hi']; omega)
      (h.getD_basis_lt (List.getElem_mem hjk)),
      List.getD_eq_getElem _ _ (Reduced.mem_kept.mp (List.getElem_mem hjk)).1,
      ← Tableau.entry, h.regular.canonical.entry_getElem
        (Nat.lt_succ_of_lt (h.length_rows ▸ hi'))]
    simp only [List.Nodup.getElem_inj_iff state.nodup_kept]

theorem free_left : ∀ column ∈ (state.left width).basis, column ∉ barred := by
  intro column hc
  obtain ⟨row, hr, rfl⟩ := List.mem_map.mp hc
  rw [List.getD_eq_getElem _ _ (Reduced.mem_kept.mp hr).1]
  exact h.regular.free _ (List.getElem_mem _)

/-- What is left states the equations of the full tableau on points without artificial part that
solve the dropped rows. -/
theorem solvedBy_left_iff {x : ℕ → ℚ}
    (hdropped : ∀ i ∈ state.dropped, gap (state.position.tableau.line i) (cutAt width x) = 0) :
    (state.left width).tableau.SolvedBy x ↔ t.SolvedBy (cutAt width x) := by
  have hkept : ∀ row ∈ state.kept,
      gap (cutTo width (state.position.tableau.line row)) x
        = gap (state.position.tableau.line row) (cutAt width x) := by
    intro row hr
    have hlen := h.length_line (h.lt_of_mem_kept hr)
    exact gap_cutTo (by omega) x
  rw [h.agrees.solvedBy_iff, Tableau.solvedBy_iff (t := state.position.tableau), h.length_rows]
  constructor
  · intro hs i hi
    by_cases hmem : i ∈ state.dropped
    · exact hdropped i hmem
    · have hlt : i < state.position.basis.length :=
        h.framed.length_basis.symm ▸ h.length_rows.symm ▸ hi
      have hk : i ∈ state.kept := Reduced.mem_kept.mpr ⟨hlt, hmem⟩
      rw [← hkept i hk]
      exact hs _ (List.mem_map.mpr ⟨i, hk, rfl⟩)
  · intro hs row hr
    obtain ⟨i, hi, rfl⟩ := List.mem_map.mp hr
    rw [hkept i hi]
    exact hs i (h.lt_of_mem_kept hi)

end Clearing

namespace Clearing.Still

variable {t : Tableau ℚ} {width count : ℕ} {barred : List ℕ} {state : Reduced ℚ}
  (h : Still t width count barred t.rows.length state)

include h

theorem rhs_left_nonneg (hrhs : ∀ row ∈ t.rows, 0 ≤ rhs row) :
    ∀ row ∈ (state.left width).tableau.rows, 0 ≤ rhs row := by
  intro row hr
  obtain ⟨i, hi, rfl⟩ := List.mem_map.mp hr
  have hlt := h.lt_of_mem_kept hi
  rw [cutTo, rhs_append, h.rhs_eq i hlt]
  exact hrhs _ (Tableau.mem_rows_iff.mpr ⟨i, hlt, rfl⟩)

/-- A dropped row is zero in the original columns and has right-hand side zero. -/
theorem gap_dropped_eq_zero (x : ℕ → ℚ) :
    ∀ i ∈ state.dropped, gap (state.position.tableau.line i) (cutAt width x) = 0 := by
  intro i hi
  obtain ⟨hzero, hbound⟩ := h.dropped_zero i hi
  rw [gap, hbound, sub_zero]
  apply Finset.sum_eq_zero
  intro j _
  rw [cutAt]
  split
  · rename_i hj
    rw [← Tableau.entry, hzero j hj, zero_mul]
  · rw [mul_zero]

end Clearing.Still

section All

variable {p : Position ℚ} {width count : ℕ} {barred : List ℕ} {tolerance : ℚ}
  (hr : p.Regular (width + count) barred) (hz : p.tableau.Vanishes barred)
  (htol : 0 ≤ tolerance)

include hr hz htol

theorem clearing_all :
    Clearing p.tableau width count barred p.tableau.rows.length
      (p.freeAll (List.range' width count) width tolerance) := by
  rw [Position.freeAll, hr.canonical.length_eq]
  apply foldl_range_induction
    (motive := fun done state => Clearing p.tableau width count barred done state)
  · exact ⟨Freed.start hr.framed, hr, hz, Tableau.Agrees.refl _⟩
  · intro done hdone state h
    exact h.step hdone htol

/-- Clearing all rows of a regular position whose basic artificial columns are zero, where the
tolerance takes no entry for zero by mistake. -/
theorem still_all (hd : p.tableau.RowsDiscerned tolerance (width + count))
    (hzero : ∀ i < p.tableau.rows.length, width ≤ p.basis.getD i 0 →
      rhs (p.tableau.line i) = 0) :
    Clearing.Still p.tableau width count barred p.tableau.rows.length
      (p.freeAll (List.range' width count) width tolerance) := by
  rw [Position.freeAll, hr.canonical.length_eq]
  apply foldl_range_induction
    (motive := fun done state => Clearing.Still p.tableau width count barred done state)
  · exact
      { toClearing := ⟨Freed.start hr.framed, hr, hz, Tableau.Agrees.refl _⟩
        rhs_eq := fun _ _ => rfl
        pending := fun i hi _ => hzero i hi
        dropped_zero := fun row hr => absurd hr List.not_mem_nil }
  · intro done hdone state h
    exact h.step hdone htol hd

end All

end Result

end SimplexMethod
