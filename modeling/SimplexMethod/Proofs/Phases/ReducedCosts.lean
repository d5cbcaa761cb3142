import Mathlib.Algebra.BigOperators.GroupWithZero.Action
import Mathlib.Algebra.Module.Pi
import Mathlib.LinearAlgebra.Span.Basic
import SimplexMethod.Proofs.Phases.Installation
import SimplexMethod.Proofs.Tableau.Unique

/-!
# Reduced costs

A combination of the constraint rows is determined by its entries in the basic columns, as each
basic column is one in its own row and zero in the others. So there is one row only that differs
from given costs by such a combination and is zero in the basic columns. It is the one that the
installation computes, and it does not depend on the order in which the columns are cleared.
-/

namespace SimplexMethod

/-- The linear combinations of the constraint rows, right-hand sides included. -/
def Tableau.rowSpace (t : Tableau ℚ) : Submodule ℚ (ℕ → ℚ) :=
  Submodule.span ℚ {entries | ∃ row ∈ t.rows, entries = (row.getD · 0)}

theorem Tableau.entry_mem_rowSpace {t : Tableau ℚ} {i : ℕ} (hi : i < t.rows.length) :
    t.entry i ∈ t.rowSpace :=
  Submodule.subset_span ⟨t.line i, mem_rows_iff.mpr ⟨i, hi, rfl⟩, rfl⟩

namespace Position

/-- The row is the costs plus a linear combination of the constraint rows, right-hand sides
included, and zero in the basic columns. -/
structure ReducedCosts (p : Position ℚ) (costs row : List ℚ) : Prop where
  length_eq : row.length = costs.length
  sub_mem : (fun j => row.getD j 0 - costs.getD j 0) ∈ p.tableau.rowSpace
  cleared : ∀ column ∈ p.basis, row.getD column 0 = 0

/-- What the installation of costs makes of a tableau: the constraint rows stay, the objective row
is the only reduced row of the costs, no order of the rows with their basic columns leads to another
one, and a second installation, of the costs or of the reduced row, changes nothing. -/
structure InstallsTo (p : Position ℚ) (costs : List ℚ) (u : Tableau ℚ) : Prop where
  rows_eq : u.rows = p.tableau.rows
  reducedCosts_iff : ∀ row, p.ReducedCosts costs row ↔ row = u.objective
  reordered : ∀ q : Position ℚ, q.basis.length = q.tableau.rows.length → p.SameUpToOrder q →
    q.installAt costs = .ok ⟨q.tableau.rows, u.objective⟩
  again : installAt ⟨u, p.basis⟩ costs = .ok u
  settled : installAt ⟨u, p.basis⟩ u.objective = .ok u

variable {p q : Position ℚ} {width : ℕ} {costs : List ℚ}

section Combinations

variable (h : p.UnitInRows) {entries : ℕ → ℚ}

include h

/-- The factor of each row in a combination is the entry in its basic column. -/
theorem UnitInRows.eq_sum (hmem : entries ∈ p.tableau.rowSpace) :
    entries = ∑ i ∈ Finset.range p.tableau.rows.length,
      entries (p.basis.getD i 0) • p.tableau.entry i := by
  induction hmem using Submodule.span_induction with
  | mem entries hrow =>
    obtain ⟨row, hr, rfl⟩ := hrow
    obtain ⟨k, hk, rfl⟩ := Tableau.mem_rows_iff.mp hr
    change p.tableau.entry k = ∑ i ∈ Finset.range p.tableau.rows.length,
      p.tableau.entry k (p.basis.getD i 0) • p.tableau.entry i
    rw [Finset.sum_eq_single_of_mem k (Finset.mem_range.mpr hk)]
    · rw [h.entry_eq k hk k (h.length_eq ▸ hk), if_pos rfl, one_smul]
    · intro i hi hne
      rw [h.entry_eq k hk i (h.length_eq ▸ Finset.mem_range.mp hi), if_neg hne.symm, zero_smul]
  | zero => simp
  | add one other _ _ hone hother =>
    simp only [Pi.add_apply, add_smul, Finset.sum_add_distrib]
    rw [← hone, ← hother]
  | smul factor entries _ hentries =>
    simp only [Pi.smul_apply, smul_eq_mul, mul_smul, ← Finset.smul_sum]
    rw [← hentries]

/-- A combination that is zero in the basic columns is zero. -/
theorem UnitInRows.eq_zero (hmem : entries ∈ p.tableau.rowSpace)
    (hzero : ∀ column ∈ p.basis, entries column = 0) : entries = 0 := by
  rw [h.eq_sum hmem]
  apply Finset.sum_eq_zero
  intro i hi
  have hi' : i < p.basis.length := h.length_eq ▸ Finset.mem_range.mp hi
  rw [List.getD_eq_getElem _ _ hi', hzero _ (List.getElem_mem hi'), zero_smul]

/-- Costs have one reduced row at most. -/
theorem UnitInRows.reducedCosts_unique {one other : List ℚ} (hone : p.ReducedCosts costs one)
    (hother : p.ReducedCosts costs other) : one = other := by
  have hmem := Submodule.sub_mem _ hone.sub_mem hother.sub_mem
  have hzero := h.eq_zero hmem fun column hc => by
    rw [Pi.sub_apply, hone.cleared column hc, hother.cleared column hc, sub_self]
  apply eq_of_getD (hone.length_eq.trans hother.length_eq.symm)
  intro j
  have hentry := congrFun hzero j
  simp only [Pi.sub_apply, Pi.zero_apply] at hentry
  linarith

end Combinations

section Installed

/-- Clearing columns from costs subtracts multiples of constraint rows. -/
theorem sub_mem_install (hw : p.tableau.HasWidth width)
    (hbasis : p.basis.length = p.tableau.rows.length) (hlen : costs.length = width) :
    (fun j => (p.install costs).objective.getD j 0 - costs.getD j 0) ∈ p.tableau.rowSpace := by
  have hall : (p.install costs).HasWidth width ∧ (p.install costs).rows = p.tableau.rows ∧
      (fun j => (p.install costs).objective.getD j 0 - costs.getD j 0) ∈ p.tableau.rowSpace := by
    rw [install_eq_foldl_range (hlen.trans hw.width_eq.symm)]
    apply foldl_range_induction
      (motive := fun _ (t : Tableau ℚ) => t.HasWidth width ∧ t.rows = p.tableau.rows ∧
        (fun j => t.objective.getD j 0 - costs.getD j 0) ∈ p.tableau.rowSpace)
    · refine ⟨hw.withObjective hlen, rfl, ?_⟩
      simp only [sub_self]
      exact Submodule.zero_mem _
    · rintro row hr t ⟨ht, hrows, hmem⟩
      have hrow : row < t.rows.length := hrows ▸ hbasis ▸ hr
      have hline : t.line row = p.tableau.line row := Tableau.line_eq_of_rows_eq hrows hrow
      have hlength : (t.line row).length = t.objective.length :=
        (ht.length_line (Nat.lt_succ_of_lt hrow)).trans ht.width_eq.symm
      have hstep : (fun j => (t.clearCost (p.basis.getD row 0) row).objective.getD j 0
            - costs.getD j 0)
          = (fun j => t.objective.getD j 0 - costs.getD j 0)
            - t.objective.getD (p.basis.getD row 0) 0 • p.tableau.entry row := by
        funext j
        change (cancel _ (t.line row) t.objective).getD j 0 - _ = _
        rw [getD_cancel hlength, hline]
        simp only [Pi.sub_apply, Pi.smul_apply, smul_eq_mul, Tableau.entry]
        ring
      refine ⟨ht.clearCost hrow _, hrows, ?_⟩
      rw [hstep]
      exact Submodule.sub_mem _ hmem
        (Submodule.smul_mem _ _ (Tableau.entry_mem_rowSpace (hbasis ▸ hr)))
  exact hall.2.2

variable (h : p.UnitInRows) (hw : p.tableau.HasWidth (width + 1)) (hlen : costs.length = width + 1)

include h hw hlen

/-- The installed row is the only reduced row of the costs. -/
theorem reducedCosts_iff (row : List ℚ) :
    p.ReducedCosts costs row ↔ row = (p.install costs).objective := by
  have hinstalled : p.ReducedCosts costs (p.install costs).objective :=
    { length_eq := (hasWidth_install hw h.length_eq hlen).width_eq.trans hlen.symm
      sub_mem := sub_mem_install hw h.length_eq hlen
      cleared := fun _ hc => getD_install_of_mem h hw hlen hc }
  constructor
  · intro hrow
    exact h.reducedCosts_unique hrow hinstalled
  · rintro rfl
    exact hinstalled

omit hlen in
/-- An objective row that is zero in the basic columns is reduced already. -/
theorem install_objective_eq_self
    (hcleared : ∀ column ∈ p.basis, p.tableau.objective.getD column 0 = 0) :
    p.install p.tableau.objective = p.tableau := by
  have hreduced : p.ReducedCosts p.tableau.objective p.tableau.objective :=
    { length_eq := rfl
      sub_mem := by
        simp only [sub_self]
        exact Submodule.zero_mem _
      cleared := hcleared }
  have hobjective := (reducedCosts_iff h hw hw.width_eq _).mp hreduced
  calc
    p.install p.tableau.objective
        = ⟨(p.install p.tableau.objective).rows, (p.install p.tableau.objective).objective⟩ := rfl
    _ = p.tableau := by rw [rows_install, ← hobjective]

end Installed

section Order

/-- A constraint row is one in its own basic column and zero in those of the others. -/
theorem UnitInRows.getD_of_mem_zip (h : p.UnitInRows) {place : ℕ × List ℚ}
    (hplace : place ∈ p.basis.zip p.tableau.rows) {column : ℕ} (hc : column ∈ p.basis) :
    place.2.getD column 0 = if place.1 = column then 1 else 0 := by
  obtain ⟨i, hi, rfl⟩ := List.mem_iff_getElem.mp hplace
  obtain ⟨j, hj, rfl⟩ := List.mem_iff_getElem.mp hc
  have hi' : i < p.tableau.rows.length := (lt_min_iff.mp (List.length_zip ▸ hi)).2
  have hentry := h.entry_eq i hi' j hj
  rw [Tableau.entry, Tableau.line_of_lt _ hi', List.getD_eq_getElem _ _ hj] at hentry
  rw [List.getElem_zip, hentry]
  simp only [h.nodup.getElem_inj_iff]

variable (h : p.UnitInRows) (hbasis : q.basis.length = q.tableau.rows.length)
  (hplaces : (p.basis.zip p.tableau.rows).Perm (q.basis.zip q.tableau.rows))

include h hbasis hplaces

theorem basis_perm : p.basis.Perm q.basis := by
  have hperm := hplaces.map Prod.fst
  rwa [List.map_fst_zip h.length_eq.le, List.map_fst_zip hbasis.le] at hperm

theorem rows_perm : p.tableau.rows.Perm q.tableau.rows := by
  have hperm := hplaces.map Prod.snd
  rwa [List.map_snd_zip h.length_eq.ge, List.map_snd_zip hbasis.ge] at hperm

/-- Rows that keep their basic columns can be put into any order. -/
theorem unitInRows_of_perm : q.UnitInRows where
  length_eq := hbasis
  nodup := (basis_perm h hbasis hplaces).nodup_iff.mp h.nodup
  entry_eq := by
    intro i hi j hj
    have hi' : i < q.basis.length := hbasis ▸ hi
    have hplace : (q.basis[i], q.tableau.rows[i]) ∈ p.basis.zip p.tableau.rows := by
      rw [hplaces.mem_iff, List.mem_iff_getElem]
      exact ⟨i, by rw [List.length_zip]; exact lt_min hi' hi, List.getElem_zip⟩
    have hc : q.basis[j] ∈ p.basis :=
      (basis_perm h hbasis hplaces).mem_iff.mpr (List.getElem_mem hj)
    have hnodup := (basis_perm h hbasis hplaces).nodup_iff.mp h.nodup
    rw [Tableau.entry, Tableau.line_of_lt _ hi, List.getD_eq_getElem _ _ hj,
      h.getD_of_mem_zip hplace hc]
    simp only [hnodup.getElem_inj_iff]

theorem rowSpace_eq_of_perm : p.tableau.rowSpace = q.tableau.rowSpace := by
  simp only [Tableau.rowSpace, (rows_perm h hbasis hplaces).mem_iff]

/-- The reduced rows of given costs do not depend on the order of the constraint rows. -/
theorem reducedCosts_iff_of_perm (row : List ℚ) :
    p.ReducedCosts costs row ↔ q.ReducedCosts costs row := by
  have hspace := rowSpace_eq_of_perm h hbasis hplaces
  have hmem := fun column => (basis_perm h hbasis hplaces).mem_iff (a := column)
  constructor
  · intro hrow
    exact ⟨hrow.length_eq, hspace ▸ hrow.sub_mem, fun c hc => hrow.cleared c ((hmem c).mpr hc)⟩
  · intro hrow
    exact ⟨hrow.length_eq, hspace ▸ hrow.sub_mem, fun c hc => hrow.cleared c ((hmem c).mp hc)⟩

/-- Installing costs leads to the same objective row for every order of the constraint rows. -/
theorem install_eq_of_perm (hw : p.tableau.HasWidth (width + 1))
    (hw' : q.tableau.HasWidth (width + 1)) (hlen : costs.length = width + 1) :
    q.install costs = ⟨q.tableau.rows, (p.install costs).objective⟩ := by
  have hunit := unitInRows_of_perm h hbasis hplaces
  have hrow := (reducedCosts_iff hunit hw' hlen (q.install costs).objective).mpr rfl
  have hsame := (reducedCosts_iff h hw hlen _).mp
    ((reducedCosts_iff_of_perm h hbasis hplaces _).mpr hrow)
  rw [← hsame, ← q.rows_install costs]

end Order

theorem UnitInRows.installAt_eq_ok (h : p.UnitInRows) (hw : p.tableau.HasWidth width)
    (hlen : costs.length = width) : p.installAt costs = .ok (p.install costs) := by
  apply Position.installAt_eq_ok hw h.length_eq hlen
  intro column hc
  obtain ⟨i, hi, rfl⟩ := List.mem_iff_getElem.mp hc
  have hi' : i < p.tableau.rows.length := h.length_eq ▸ hi
  have hentry := h.entry_eq i hi' i hi
  rw [if_pos rfl, List.getD_eq_getElem _ _ hi] at hentry
  exact Tableau.lt_width_of_entry_ne_zero hw (hentry.trans_ne one_ne_zero)

/-- Costs installed for a basis of unit columns are reduced in the one way there is. -/
theorem exists_installsTo (hw : p.tableau.HasWidth (width + 1)) (h : p.UnitInRows)
    (hlen : costs.length = width + 1) :
    ∃ u, p.installAt costs = .ok u ∧ p.InstallsTo costs u := by
  have hwidth := hasWidth_install hw h.length_eq hlen
  have hrows := p.rows_install costs
  have hplaces : (p.basis.zip p.tableau.rows).Perm (p.basis.zip (p.install costs).rows) := by
    rw [hrows]
  have hbasis : p.basis.length = (p.install costs).rows.length := by
    rw [hrows, h.length_eq]
  have hunit : UnitInRows ⟨p.install costs, p.basis⟩ := unitInRows_of_perm h hbasis hplaces
  refine ⟨p.install costs, h.installAt_eq_ok hw hlen, ?_⟩
  exact
    { rows_eq := hrows
      reducedCosts_iff := reducedCosts_iff h hw hlen
      reordered := by
        intro q hq hsame
        have hq' : q.tableau.HasWidth (width + 1) := by
          intro line hl
          rcases List.mem_append.mp hl with hrow | hobjective
          · exact hw.length_row ((rows_perm h hq hsame.rows_perm).mem_iff.mpr hrow)
          · rw [List.mem_singleton.mp hobjective, ← hsame.objective_eq]
            exact hw.width_eq
        rw [(unitInRows_of_perm h hq hsame.rows_perm).installAt_eq_ok hq' hlen,
          install_eq_of_perm h hq hsame.rows_perm hw hq' hlen]
      again := by
        rw [hunit.installAt_eq_ok hwidth hlen, install_eq_of_perm h hbasis hplaces hw hwidth hlen]
      settled := by
        rw [hunit.installAt_eq_ok hwidth hwidth.width_eq]
        exact congrArg Except.ok (install_objective_eq_self hunit hwidth fun _ hc =>
          getD_install_of_mem h hw hlen hc) }

/-- Two rows the basic columns of which stand in reverse order. -/
def reversed : Position ℚ where
  tableau :=
    { rows := [[0, 1, 0, -1, 1], [1, 0, 0, 1, 3]],
      objective := [0, 0, 0, 0, 0] }
  basis := [1, 0]

/-- The rows in the order of their basic columns give the same objective row. -/
theorem installsTo_reversed :
    ∃ u, reversed.installAt [-1, -2, 0, 0, 0] = .ok u ∧ u.objective = [0, 0, 0, -1, 5] ∧
      reversed.InstallsTo [-1, -2, 0, 0, 0] u ∧
      installAt ⟨⟨[[1, 0, 0, 1, 3], [0, 1, 0, -1, 1]], [0, 0, 0, 0, 0]⟩, [0, 1]⟩
        [-1, -2, 0, 0, 0] = .ok ⟨[[1, 0, 0, 1, 3], [0, 1, 0, -1, 1]], u.objective⟩ := by
  have hcanonical : reversed.Canonical := by decide +kernel
  obtain ⟨u, hu, hinstalls⟩ :=
    @exists_installsTo reversed 4 [-1, -2, 0, 0, 0]
      (by simp [reversed, Tableau.HasWidth, Tableau.lines])
      hcanonical.toBasicInRows.unitInRows rfl
  have hread : ((reversed.installAt [-1, -2, 0, 0, 0]).toOption.map Tableau.objective)
      = some [0, 0, 0, -1, 5] := by decide +kernel
  rw [hu] at hread
  refine ⟨u, hu, Option.some.inj hread, hinstalls, ?_⟩
  exact hinstalls.reordered ⟨⟨[[1, 0, 0, 1, 3], [0, 1, 0, -1, 1]], [0, 0, 0, 0, 0]⟩, [0, 1]⟩ rfl
    ⟨rfl, List.Perm.swap _ _ _⟩

end Position

end SimplexMethod
