import SimplexMethod.Proofs.Pivoting.Progress

/-!
# Bland's rule does not cycle

Suppose that a run under Bland's rule came back to a basis with the same columns. Then the basic
point never moves, and every column that changes its state enters at some pivot. The greatest such
column enters at one pivot and leaves at another one. The direction of the latter pivot, read by
the objective row of the former, leads to a column that Bland's rule would have let leave instead.
-/

namespace SimplexMethod

namespace Pivoting

/-- Between a number without a property and a later one with it, some step brings it about. -/
theorem exists_step (property : ℕ → Prop) {a b : ℕ} (hab : a ≤ b) (ha : ¬ property a)
    (hb : property b) : ∃ k, a ≤ k ∧ k < b ∧ ¬ property k ∧ property (k + 1) := by
  induction b, hab using Nat.le_induction with
  | base => exact absurd hb ha
  | succ b hab ih =>
    by_cases hbefore : property b
    · obtain ⟨k, hak, hkb, hk⟩ := ih hbefore
      exact ⟨k, hak, Nat.lt_succ_of_lt hkb, hk⟩
    · exact ⟨b, hab, Nat.lt_succ_self b, hbefore, hb⟩

section Basis

variable {s : State ℚ} {setting : Setting ℚ} {entering leaving : ℕ}

theorem State.Moves.basis_after (h : s.Moves setting entering leaving) :
    (s.advance setting).position.basis = s.position.basis.set leaving entering := by
  rw [State.advance_of_moves h]
  rfl

/-- A column that a pivot puts into the basis is the entering one. -/
theorem State.Moves.eq_entering (h : s.Moves setting entering leaving) {column : ℕ}
    (hbefore : column ∉ s.position.basis)
    (hafter : column ∈ (s.advance setting).position.basis) : column = entering := by
  rw [h.basis_after] at hafter
  exact (List.mem_or_eq_of_mem_set hafter).resolve_left hbefore

/-- A column that a pivot takes out of the basis was basic in the leaving row. -/
theorem State.Moves.eq_basic (h : s.Moves setting entering leaving) {column : ℕ}
    (hbefore : column ∈ s.position.basis)
    (hafter : column ∉ (s.advance setting).position.basis) :
    s.position.basis.getD leaving 0 = column := by
  rw [h.basis_after] at hafter
  obtain ⟨i, hi, rfl⟩ := List.mem_iff_getElem.mp hbefore
  by_cases heq : leaving = i
  · subst heq
    exact List.getD_eq_getElem _ _ hi
  · have hi' : i < (s.position.basis.set leaving entering).length := by simpa using hi
    have hset : (s.position.basis.set leaving entering)[i] = s.position.basis[i] :=
      List.getElem_set_ne heq hi'
    exact absurd (hset ▸ List.getElem_mem hi') hafter

theorem State.Moves.entering_mem_after (h : s.Moves setting entering leaving)
    (hlen : s.position.basis.length = s.position.tableau.rows.length) :
    entering ∈ (s.advance setting).position.basis := by
  rw [h.basis_after]
  exact List.mem_set (hlen ▸ h.leaving_lt) _

end Basis

/-- Before the column that Bland's rule lets enter, no column that may enter has a negative cost. -/
theorem State.Moves.cost_nonneg_of_lt {s : State ℚ} {setting : Setting ℚ} {entering leaving : ℕ}
    (h : s.Moves setting entering leaving) (htol : setting.tolerance = 0) (hrule : s.rule = .bland)
    {j : ℕ} (hj : j < entering) (hb : j ∉ setting.barred) :
    0 ≤ s.position.tableau.objective.getD j 0 := by
  have henters := h.enters
  rw [State.entering?, hrule] at henters
  simpa [htol] using le_cost_of_lt_chooseEntering henters hj hb

/-- A run under Bland's rule that comes back to the columns of its first basis. -/
structure Cycle (setting : Setting ℚ) (s : State ℚ) (width length : ℕ) : Prop where
  exact_tolerance : setting.tolerance = 0
  bland : s.rule = .bland
  ready : s.position.Ready width setting.barred
  length_pos : 0 < length
  moves : ∀ k < length, ∃ entering leaving, (s.after setting k).Moves setting entering leaving
  closes : ∀ column, column ∈ s.position.basis ↔
    column ∈ (s.after setting length).position.basis

/-- Bland's rule stays in force. -/
theorem State.rule_after_of_bland {s : State ℚ} (h : s.rule = .bland) (setting : Setting ℚ)
    (k : ℕ) : (s.after setting k).rule = .bland := by
  refine State.after_induction (fun s => s.rule = .bland) h ?_ k
  intro s entering leaving hs _
  simp [State.next, hs]

namespace Cycle

variable {setting : Setting ℚ} {s : State ℚ} {width length : ℕ}

theorem ready_after (h : Cycle setting s width length) (k : ℕ) :
    (s.after setting k).position.Ready width setting.barred :=
  State.ready_after h.exact_tolerance h.ready k

theorem agrees (h : Cycle setting s width length) (k l : ℕ) :
    (s.after setting k).position.tableau.Agrees (s.after setting l).position.tableau :=
  (State.regular_after h.exact_tolerance.ge h.ready.toRegular k).2.symm.trans
    (State.regular_after h.exact_tolerance.ge h.ready.toRegular l).2

/-- The value of the objective at the basic point is the same all along a cycle. -/
theorem rhs_objective_eq (h : Cycle setting s width length) {k : ℕ} (hk : k ≤ length) :
    rhs (s.after setting k).position.tableau.objective = rhs s.position.tableau.objective := by
  have hlast := h.ready_after length
  have hpoint : ∀ j < width, s.position.point j = (s.after setting length).position.point j := by
    apply hlast.canonical.eq_point hlast.hasWidth
    · exact ((h.agrees 0 length).solvedBy_iff _).mp
        (h.ready.canonical.solvedBy_point h.ready.hasWidth)
    · intro j _ hj
      exact Position.point_of_notMem fun hmem => hj ((h.closes j).mp hmem)
  have hends : rhs (s.after setting length).position.tableau.objective
      = rhs s.position.tableau.objective := by
    have hgap := (h.agrees 0 length).gap_eq _
      (h.ready.canonical.solvedBy_point h.ready.hasWidth)
    have hcongr : gap (s.after setting length).position.tableau.objective s.position.point
        = gap (s.after setting length).position.tableau.objective
          (s.after setting length).position.point := by
      apply gap_congr
      rw [show (s.after setting length).position.tableau.objective.length = width + 1
        from hlast.hasWidth.width_eq]
      exact hpoint
    rw [State.after_zero, h.ready.canonical.gap_objective_point h.ready.hasWidth, hcongr,
      hlast.canonical.gap_objective_point hlast.hasWidth] at hgap
    linarith
  have hmono := State.monotone_rhs_objective h.exact_tolerance h.ready
  have hle := hmono hk
  have hge := hmono (Nat.zero_le k)
  dsimp only [State.after_zero] at hle hge
  linarith

/-- Every pivot of a cycle is degenerate. -/
theorem rhs_leaving_eq_zero (h : Cycle setting s width length) {k : ℕ} (hk : k < length)
    {entering leaving : ℕ} (hm : (s.after setting k).Moves setting entering leaving) :
    rhs ((s.after setting k).position.tableau.line leaving) = 0 := by
  have hstep := hm.rhs_objective (h.ready_after k).hasWidth
  have hafter : rhs ((s.after setting k).moved entering leaving).tableau.objective
      = rhs (s.after setting (k + 1)).position.tableau.objective := by
    rw [State.after_succ', State.advance_of_moves hm]
    rfl
  rw [hafter, h.rhs_objective_eq hk, h.rhs_objective_eq hk.le] at hstep
  have hcost := hm.cost_neg h.exact_tolerance.ge
  have hentry := hm.entry_pos h.exact_tolerance.ge
  have hratio := (mul_eq_zero.mp (by linarith :
    (s.after setting k).position.tableau.objective.getD entering 0
      * (rhs ((s.after setting k).position.tableau.line leaving)
        / (s.after setting k).position.tableau.entry leaving entering) = 0)).resolve_left hcost.ne
  exact (div_eq_zero_iff.mp hratio).resolve_right hentry.ne'

/-- The basic point does not move along a cycle: the columns that leave are basic in rows with
right-hand side zero. -/
theorem point_eq (h : Cycle setting s width length) {k : ℕ} (hk : k ≤ length) :
    ∀ j < width, (s.after setting k).position.point j = s.position.point j := by
  induction k with
  | zero => intro j _; rfl
  | succ k ih =>
    obtain ⟨entering, leaving, hm⟩ := h.moves k hk
    have hready := h.ready_after k
    have hnext := h.ready_after (k + 1)
    have hstay : ∀ j < width, (s.after setting k).position.point j
        = (s.after setting (k + 1)).position.point j := by
      apply hnext.canonical.eq_point hnext.hasWidth
      · exact ((h.agrees k (k + 1)).solvedBy_iff _).mp
          (hready.canonical.solvedBy_point hready.hasWidth)
      · intro j _ hj
        by_cases hb : j ∈ (s.after setting k).position.basis
        · rw [State.after_succ'] at hj
          have hlt : leaving < (s.after setting k).position.basis.length :=
            hready.canonical.length_eq ▸ hm.leaving_lt
          rw [← hm.eq_basic hb hj, List.getD_eq_getElem _ _ hlt,
            Position.point_getElem hready.canonical.nodup hlt]
          exact h.rhs_leaving_eq_zero hk hm
        · exact Position.point_of_notMem hb
    intro j hj
    rw [← hstay j hj, ih (Nat.le_of_succ_le hk) j hj]

/-- A column that is basic at one time of a cycle but not at another one enters at some time. -/
theorem enters (h : Cycle setting s width length) {column k l : ℕ} (hk : k ≤ length)
    (hl : l ≤ length) (hin : column ∈ (s.after setting k).position.basis)
    (hout : column ∉ (s.after setting l).position.basis) :
    ∃ i < length, ∃ leaving, (s.after setting i).Moves setting column leaving := by
  have hstep : ∃ i < length, column ∉ (s.after setting i).position.basis ∧
      column ∈ (s.after setting (i + 1)).position.basis := by
    rcases Nat.le_total l k with hlk | hkl
    · obtain ⟨i, -, hik, hi⟩ :=
        exists_step (fun i => column ∈ (s.after setting i).position.basis) hlk hout hin
      exact ⟨i, by omega, hi⟩
    · by_cases hend : column ∈ (s.after setting length).position.basis
      · obtain ⟨i, -, hi, hchange⟩ := exists_step
          (fun i => column ∈ (s.after setting i).position.basis) hl hout hend
        exact ⟨i, hi, hchange⟩
      · have hstart : column ∉ (s.after setting 0).position.basis :=
          fun hmem => hend ((h.closes column).mp hmem)
        obtain ⟨i, -, hik, hi⟩ := exists_step
          (fun i => column ∈ (s.after setting i).position.basis) (Nat.zero_le k)
          hstart hin
        exact ⟨i, by omega, hi⟩
  obtain ⟨i, hi, hbefore, hafter⟩ := hstep
  obtain ⟨entering, leaving, hm⟩ := h.moves i hi
  rw [State.after_succ'] at hafter
  obtain rfl := hm.eq_entering hbefore hafter
  exact ⟨i, hi, leaving, hm⟩

/-- A column that enters during a cycle also leaves at some time. -/
theorem leaves (h : Cycle setting s width length) {column i leaving : ℕ} (hi : i < length)
    (hm : (s.after setting i).Moves setting column leaving) :
    ∃ k < length, ∃ entering leaving, (s.after setting k).Moves setting entering leaving ∧
      (s.after setting k).position.basis.getD leaving 0 = column := by
  have hout := hm.entering_notMem_basis h.exact_tolerance.ge (h.ready_after i).canonical
  have hin := hm.entering_mem_after (h.ready_after i).canonical.length_eq
  rw [← State.after_succ'] at hin
  have hstep : ∃ k < length, column ∈ (s.after setting k).position.basis ∧
      column ∉ (s.after setting (k + 1)).position.basis := by
    by_cases hend : column ∈ (s.after setting length).position.basis
    · have hstart : ¬ column ∉ (s.after setting 0).position.basis :=
        not_not.mpr ((h.closes column).mpr hend)
      obtain ⟨k, -, hki, hk, hk'⟩ := exists_step
        (fun k => column ∉ (s.after setting k).position.basis) (Nat.zero_le i)
        hstart hout
      exact ⟨k, by omega, not_not.mp hk, hk'⟩
    · obtain ⟨k, -, hk, hbefore, hafter⟩ := exists_step
        (fun k => column ∉ (s.after setting k).position.basis) hi
        (not_not.mpr hin) hend
      exact ⟨k, hk, not_not.mp hbefore, hafter⟩
  obtain ⟨k, hk, hbefore, hafter⟩ := hstep
  obtain ⟨entering, leaving, hmoves⟩ := h.moves k hk
  rw [State.after_succ'] at hafter
  exact ⟨k, hk, entering, leaving, hmoves, hmoves.eq_basic hbefore hafter⟩

/-- Of the columns that enter during a cycle one is the greatest. -/
theorem exists_greatest (h : Cycle setting s width length) :
    ∃ column, ∃ i < length, (∃ leaving, (s.after setting i).Moves setting column leaving) ∧
      ∀ k < length, ∀ entering leaving,
        (s.after setting k).Moves setting entering leaving → entering ≤ column := by
  choose! entering leaving hm using h.moves
  obtain ⟨i, hi, hmax⟩ := Finset.exists_max_image (Finset.range length) entering
    ⟨0, Finset.mem_range.mpr h.length_pos⟩
  have hlt := Finset.mem_range.mp hi
  refine ⟨entering i, i, hlt, ⟨leaving i, hm i hlt⟩, ?_⟩
  intro k hk e l hmoves
  have heq : e = entering k := Option.some.inj (hmoves.enters.symm.trans (hm k hk).enters)
  exact heq ▸ hmax k (Finset.mem_range.mpr hk)

/-- The direction of one pivot has, against the costs at another time, an improving entry. -/
theorem exists_improving (h : Cycle setting s width length) {k entering leaving : ℕ}
    (hm : (s.after setting k).Moves setting entering leaving) (i : ℕ) :
    ∃ j, (s.after setting i).position.tableau.objective.getD j 0
      * (s.after setting k).position.direction entering j < 0 := by
  have hp := h.ready_after k
  have hentering := hm.entering_lt hp.hasWidth
  have hform : formAt (s.after setting i).position.tableau.objective
      ((s.after setting k).position.direction entering) < 0 := by
    rw [← (h.agrees k i).formAt_eq (hp.canonical.solvedBy_point hp.hasWidth)
      (fun row hr => hp.canonical.formAt_row_direction hp.hasWidth hentering hr),
      hp.canonical.formAt_objective_direction hp.hasWidth hentering]
    exact hm.cost_neg h.exact_tolerance.ge
  by_contra hnone
  push Not at hnone
  apply hform.not_ge
  rw [formAt]
  exact Finset.sum_nonneg fun j _ => hnone j

/-- A column that is not always basic and would limit the entering column comes after the one
that leaves. -/
theorem basic_le_of_entry_pos (h : Cycle setting s width length) {k entering leaving : ℕ}
    (hk : k < length) (hm : (s.after setting k).Moves setting entering leaving) {r : ℕ}
    (hr : r < (s.after setting k).position.basis.length)
    (hentry : 0 < (s.after setting k).position.tableau.entry r entering) {i : ℕ}
    (hi : i ≤ length)
    (hout : (s.after setting k).position.basis[r] ∉ (s.after setting i).position.basis) :
    (s.after setting k).position.basis.getD leaving 0
      ≤ (s.after setting k).position.basis[r] := by
  have hp := h.ready_after k
  have hzero : rhs ((s.after setting k).position.tableau.line r) = 0 := by
    have hj := hp.canonical.lt_of_mem hp.hasWidth (List.getElem_mem hr)
    rw [← Position.point_getElem hp.canonical.nodup hr, h.point_eq hk.le _ hj,
      ← h.point_eq hi _ hj, Position.point_of_notMem hout]
  have hleaves := hm.leaves
  rw [State.leaving?, State.rule_after_of_bland h.bland] at hleaves
  have htie := Tableau.chooseLeaving_bland hleaves (hp.canonical.length_eq ▸ hr)
    (h.exact_tolerance ▸ hentry) (by rw [hzero, h.rhs_leaving_eq_zero hk hm, zero_div, zero_div])
  rwa [List.getD_eq_getElem _ _ hr] at htie

section Greatest

variable {last row i k entering leaving : ℕ}

/-- Where the greatest column enters, no smaller one that may enter has a negative cost. -/
theorem cost_nonneg (h : Cycle setting s width length)
    (hlast : (s.after setting i).Moves setting last row) {j : ℕ} (hj : j < last)
    (hb : j ∉ setting.barred) :
    0 ≤ (s.after setting i).position.tableau.objective.getD j 0 :=
  hlast.cost_nonneg_of_lt h.exact_tolerance (State.rule_after_of_bland h.bland setting i) hj hb

variable (h : Cycle setting s width length) (hi : i < length)
  (hlast : (s.after setting i).Moves setting last row)
  (hgreatest : ∀ l < length, ∀ column place,
    (s.after setting l).Moves setting column place → column ≤ last)
  (hk : k < length) (hm : (s.after setting k).Moves setting entering leaving)
  (hbasic : (s.after setting k).position.basis.getD leaving 0 = last)

include h hlast hgreatest hk hm hbasic

/-- The column that enters where the greatest one leaves has no negative cost where that one
enters. -/
theorem cost_entering_nonneg :
    0 ≤ (s.after setting i).position.tableau.objective.getD entering 0 := by
  have hp := h.ready_after k
  have hleaving : leaving < (s.after setting k).position.basis.length :=
    hp.canonical.length_eq ▸ hm.leaving_lt
  have hne : entering ≠ last := by
    rintro rfl
    apply hm.entering_notMem_basis h.exact_tolerance.ge hp.canonical
    rw [← hbasic, List.getD_eq_getElem _ _ hleaving]
    exact List.getElem_mem hleaving
  exact h.cost_nonneg hlast (lt_of_le_of_ne (hgreatest k hk _ _ hm) hne) hm.entering_notMem_barred

include hi

/-- No basic column improves along the direction on which the greatest column leaves. A smaller
column with a positive entry would have left in its place, and the greatest column itself has a
negative cost and a positive entry. -/
theorem cost_mul_entry_nonpos {r : ℕ} (hr : r < (s.after setting k).position.basis.length) :
    (s.after setting i).position.tableau.objective.getD
        (s.after setting k).position.basis[r] 0
      * (s.after setting k).position.tableau.entry r entering ≤ 0 := by
  have hp := h.ready_after k
  have hmem := List.getElem_mem hr
  by_cases hout : (s.after setting k).position.basis[r] ∈ (s.after setting i).position.basis
  · rw [(h.ready_after i).canonical.cleared _ hout, zero_mul]
  · obtain ⟨l, hl, place, hm'⟩ := h.enters hk.le hi.le hmem hout
    rcases (hgreatest l hl _ _ hm').lt_or_eq with hlt | heq
    · have hentry : (s.after setting k).position.tableau.entry r entering ≤ 0 := by
        by_contra hpos
        have hle := h.basic_le_of_entry_pos hk hm hr (not_le.mp hpos) hi.le hout
        omega
      exact mul_nonpos_of_nonneg_of_nonpos (h.cost_nonneg hlast hlt (hp.free _ hmem)) hentry
    · have hleaving : leaving < (s.after setting k).position.basis.length :=
        hp.canonical.length_eq ▸ hm.leaving_lt
      rw [List.getD_eq_getElem _ _ hleaving] at hbasic
      have hsame : r = leaving :=
        (List.Nodup.getElem_inj_iff hp.canonical.nodup).mp (heq.trans hbasic.symm)
      subst hsame
      rw [heq]
      exact (mul_neg_of_neg_of_pos (hlast.cost_neg h.exact_tolerance.ge)
        (hm.entry_pos h.exact_tolerance.ge)).le

end Greatest

/-- Bland's rule does not cycle. -/
theorem false (h : Cycle setting s width length) : False := by
  obtain ⟨last, i, hi, ⟨row, hlast⟩, hgreatest⟩ := h.exists_greatest
  obtain ⟨k, hk, entering, leaving, hm, hbasic⟩ := h.leaves hi hlast
  obtain ⟨j, hneg⟩ := h.exists_improving hm i
  have hp := h.ready_after k
  have hentering := hm.entering_notMem_basis h.exact_tolerance.ge hp.canonical
  apply hneg.not_ge
  by_cases hjb : j ∈ (s.after setting k).position.basis
  · obtain ⟨r, hr, rfl⟩ := List.mem_iff_getElem.mp hjb
    have hprod := h.cost_mul_entry_nonpos hi hlast hgreatest hk hm hbasic hr
    rw [Position.direction_getElem hp.canonical.nodup hentering hr, mul_neg]
    exact neg_nonneg.mpr hprod
  · by_cases hje : j = entering
    · subst hje
      rw [Position.direction_self hjb, mul_one]
      exact h.cost_entering_nonneg hlast hgreatest hk hm hbasic
    · rw [Position.direction_of_notMem hjb hje, mul_zero]

end Cycle

end Pivoting

end SimplexMethod
