import SimplexMethod.Proofs.Pivoting.Selection
import SimplexMethod.Proofs.Tableau.Certificate
import SimplexMethod.Proofs.Tableau.Discerned
import SimplexMethod.Proofs.Tableau.Frame

/-!
# What a pivot of a run keeps

A regular position is canonical, of a known width, and has no barred column in its basis. Every
pivot of a run keeps a position regular and leads to a tableau that agrees with the one before.
If the tolerance discerns the entries of the rows, as it does where nothing is tolerated, the ratio
test moreover keeps all right-hand sides non-negative. Without a tolerance the right-hand side of
the objective row then never falls.
-/

namespace SimplexMethod

namespace Position

/-- The position is canonical, has the given number of columns besides the right-hand side, and
no barred column is basic. -/
structure Regular (p : Position ℚ) (width : ℕ) (barred : List ℕ) : Prop where
  hasWidth : p.tableau.HasWidth (width + 1)
  canonical : p.Canonical
  free : ∀ column ∈ p.basis, column ∉ barred

/-- A regular position whose basic point is non-negative. -/
structure Ready (p : Position ℚ) (width : ℕ) (barred : List ℕ) : Prop
    extends Regular p width barred where
  rhs_nonneg : ∀ row ∈ p.tableau.rows, 0 ≤ rhs row

theorem Regular.framed {p : Position ℚ} {width : ℕ} {barred : List ℕ}
    (h : p.Regular width barred) : p.Framed width :=
  ⟨h.hasWidth, h.canonical.length_eq, fun _ hc => h.canonical.lt_of_mem h.hasWidth hc⟩

theorem Regular.restates {p : Position ℚ} {t : Tableau ℚ} {width : ℕ} {barred : List ℕ}
    (h : p.Regular width barred) (hagrees : t.Agrees p.tableau) : p.Restates t width :=
  ⟨h.hasWidth, h.canonical, hagrees⟩

theorem Ready.point_nonneg {p : Position ℚ} {width : ℕ} {barred : List ℕ}
    (h : p.Ready width barred) (j : ℕ) : 0 ≤ p.point j :=
  Position.point_nonneg h.rhs_nonneg h.canonical.length_eq j

end Position

namespace Pivoting.State

variable {s : State ℚ} {setting : Setting ℚ} {entering leaving width : ℕ}

namespace Moves

theorem tolerance_lt_entry (h : s.Moves setting entering leaving) :
    setting.tolerance < s.position.tableau.entry leaving entering :=
  (Tableau.chooseLeaving_least h.leaves).2.1

theorem ratio_le (h : s.Moves setting entering leaving) {i : ℕ}
    (hi : i < s.position.tableau.rows.length)
    (hentry : setting.tolerance < s.position.tableau.entry i entering) :
    rhs (s.position.tableau.line leaving) / s.position.tableau.entry leaving entering
      ≤ rhs (s.position.tableau.line i) / s.position.tableau.entry i entering :=
  (Tableau.chooseLeaving_least h.leaves).2.2 i hi hentry

/-- The objective row takes the ratio of the pivot at the cost of the entering column. -/
theorem rhs_objective (h : s.Moves setting entering leaving)
    (hw : s.position.tableau.HasWidth (width + 1)) :
    rhs (s.moved entering leaving).tableau.objective
      = rhs s.position.tableau.objective
        - s.position.tableau.objective.getD entering 0
          * (rhs (s.position.tableau.line leaving)
            / s.position.tableau.entry leaving entering) := by
  have hleaving := h.leaving_lt
  have hrhs := Tableau.rhs_line_pivot hw (Nat.lt_succ_of_lt hleaving) entering
    (Nat.lt_succ_self s.position.tableau.rows.length)
  rw [if_neg hleaving.ne', Tableau.line_length, Tableau.entry, Tableau.line_length] at hrhs
  rw [← hrhs, ← Tableau.length_rows_pivot _ leaving entering, Tableau.line_length]
  rfl

variable (htol : 0 ≤ setting.tolerance)

include htol

theorem entry_pos (h : s.Moves setting entering leaving) :
    0 < s.position.tableau.entry leaving entering :=
  htol.trans_lt h.tolerance_lt_entry

theorem cost_neg (h : s.Moves setting entering leaving) :
    s.position.tableau.objective.getD entering 0 < 0 :=
  h.cost_lt.trans_le (neg_nonpos.mpr htol)

/-- The objective row takes a positive multiple of the right-hand side of the leaving row. -/
theorem exists_gain (h : s.Moves setting entering leaving)
    (hw : s.position.tableau.HasWidth (width + 1)) :
    ∃ gain, 0 < gain ∧ rhs (s.moved entering leaving).tableau.objective
      = rhs s.position.tableau.objective + gain * rhs (s.position.tableau.line leaving) := by
  refine ⟨-s.position.tableau.objective.getD entering 0
    / s.position.tableau.entry leaving entering,
    div_pos (neg_pos.mpr (h.cost_neg htol)) (h.entry_pos htol), ?_⟩
  rw [h.rhs_objective hw]
  ring

/-- The right-hand side of the objective row falls exactly if that of the leaving row is
negative. -/
theorem rhs_objective_le_iff (h : s.Moves setting entering leaving)
    (hw : s.position.tableau.HasWidth (width + 1)) :
    rhs s.position.tableau.objective ≤ rhs (s.moved entering leaving).tableau.objective
      ↔ 0 ≤ rhs (s.position.tableau.line leaving) := by
  obtain ⟨gain, hpos, heq⟩ := h.exists_gain htol hw
  rw [heq, le_add_iff_nonneg_right, mul_nonneg_iff_of_pos_left hpos]

/-- The right-hand side of the objective row rises exactly if that of the leaving row is
positive. -/
theorem rhs_objective_lt_iff (h : s.Moves setting entering leaving)
    (hw : s.position.tableau.HasWidth (width + 1)) :
    rhs s.position.tableau.objective < rhs (s.moved entering leaving).tableau.objective
      ↔ 0 < rhs (s.position.tableau.line leaving) := by
  obtain ⟨gain, hpos, heq⟩ := h.exists_gain htol hw
  rw [heq, lt_add_iff_pos_right, mul_pos_iff_of_pos_left hpos]

/-- A column that costs nothing never enters. -/
theorem entering_notMem_of_cleared (h : s.Moves setting entering leaving) {columns : List ℕ}
    (hc : ∀ column ∈ columns, s.position.tableau.objective.getD column 0 = 0) :
    entering ∉ columns := by
  intro hmem
  have hneg := h.cost_neg htol
  rw [hc entering hmem] at hneg
  exact lt_irrefl _ hneg

/-- A basic column never enters. -/
theorem entering_notMem_basis (h : s.Moves setting entering leaving)
    (hc : s.position.Canonical) : entering ∉ s.position.basis :=
  h.entering_notMem_of_cleared htol hc.cleared

theorem agrees (h : s.Moves setting entering leaving)
    (hw : s.position.tableau.HasWidth (width + 1)) :
    s.position.tableau.Agrees (s.moved entering leaving).tableau :=
  Tableau.agrees_pivot hw h.leaving_lt (h.entry_pos htol).ne'

theorem restates (h : s.Moves setting entering leaving) {t : Tableau ℚ}
    (hr : s.position.Restates t width) : (s.moved entering leaving).Restates t width where
  hasWidth := hr.hasWidth.pivot (Nat.lt_succ_of_lt h.leaving_lt) entering
  canonical := hr.canonical.pivot hr.hasWidth h.leaving_lt (h.entering_lt hr.hasWidth)
    (h.entry_pos htol).ne'
  agrees := hr.agrees.trans (h.agrees htol hr.hasWidth)

theorem regular (h : s.Moves setting entering leaving)
    (hr : s.position.Regular width setting.barred) :
    (s.moved entering leaving).Regular width setting.barred := by
  have hrestates := h.restates htol (hr.restates (Tableau.Agrees.refl _))
  refine ⟨hrestates.hasWidth, hrestates.canonical, fun column hc => ?_⟩
  rcases List.mem_or_eq_of_mem_set hc with hold | rfl
  · exact hr.free column hold
  · exact h.entering_notMem_barred

end Moves

section Regular

variable (htol : 0 ≤ setting.tolerance)

include htol

/-- Every state of a run restates what the first one does. -/
theorem restates_after {t : Tableau ℚ} (hr : s.position.Restates t width) (k : ℕ) :
    (s.after setting k).position.Restates t width :=
  after_induction (fun u => u.position.Restates t width) hr
    (fun _ _ _ hu hm => hm.restates htol hu) k

/-- Every state of a run is regular if the first one is, and agrees with it. -/
theorem regular_after (hr : s.position.Regular width setting.barred) (k : ℕ) :
    (s.after setting k).position.Regular width setting.barred ∧
      s.position.tableau.Agrees (s.after setting k).position.tableau := by
  refine after_induction (fun t => t.position.Regular width setting.barred ∧
    s.position.tableau.Agrees t.position.tableau) ⟨hr, Tableau.Agrees.refl _⟩ ?_ k
  rintro t entering leaving ⟨hregular, hagrees⟩ hm
  exact ⟨hm.regular htol hregular, hagrees.trans (hm.agrees htol hregular.hasWidth)⟩

/-- The ratio test keeps right-hand sides non-negative if it passes over no positive entry. -/
theorem Moves.ready_of_discerned (h : s.Moves setting entering leaving)
    (hd : s.position.tableau.RowsDiscerned setting.tolerance width)
    (hr : s.position.Ready width setting.barred) :
    (s.moved entering leaving).Ready width setting.barred where
  toRegular := h.regular htol hr.toRegular
  rhs_nonneg := by
    intro row hrow
    obtain ⟨i, hi, rfl⟩ := Tableau.mem_rows_iff.mp hrow
    replace hi : i < s.position.tableau.rows.length := by simpa [moved] using hi
    have hnonneg : ∀ k < s.position.tableau.rows.length, 0 ≤ rhs (s.position.tableau.line k) :=
      fun k hk => hr.rhs_nonneg _ (Tableau.mem_rows_iff.mpr ⟨k, hk, rfl⟩)
    have hratio := div_nonneg (hnonneg leaving h.leaving_lt) (h.entry_pos htol).le
    change 0 ≤ rhs ((s.position.tableau.pivot leaving entering).line i)
    rw [Tableau.rhs_line_pivot hr.hasWidth (Nat.lt_succ_of_lt h.leaving_lt) entering
      (Nat.lt_succ_of_lt hi)]
    split
    · exact hratio
    · rcases le_or_gt (s.position.tableau.entry i entering) setting.tolerance with hle | hlt
      · have hdiscerned := hd _ (hr.restates (Tableau.Agrees.refl _)) i hi entering
          (h.entering_lt hr.hasWidth)
        have hprod := mul_nonpos_of_nonpos_of_nonneg (hdiscerned.nonpos_of_le hle) hratio
        have := hnonneg i hi
        linarith
      · have hmul := (le_div_iff₀ (htol.trans_lt hlt)).mp (h.ratio_le hi hlt)
        linarith

/-- Every state of a run is ready if the first one is and its rows are discerned. -/
theorem ready_after_of_discerned
    (hd : s.position.tableau.RowsDiscerned setting.tolerance width)
    (hr : s.position.Ready width setting.barred) (k : ℕ) :
    (s.after setting k).position.Ready width setting.barred := by
  refine (after_induction (fun t => t.position.Ready width setting.barred ∧
    s.position.tableau.Agrees t.position.tableau) ⟨hr, Tableau.Agrees.refl _⟩ ?_ k).1
  rintro t entering leaving ⟨hready, hagrees⟩ hm
  exact ⟨hm.ready_of_discerned htol (hd.of_agrees hagrees) hready,
    hagrees.trans (hm.agrees htol hready.hasWidth)⟩

end Regular

section Exact

variable (htol : setting.tolerance = 0)

include htol

/-- Every state of a run is ready if the first one is. -/
theorem ready_after (hr : s.position.Ready width setting.barred) (k : ℕ) :
    (s.after setting k).position.Ready width setting.barred :=
  ready_after_of_discerned htol.ge (Tableau.RowsDiscerned.of_eq_zero htol _ _) hr k

/-- The right-hand side of the objective row never falls. -/
theorem rhs_objective_le_after_succ (hr : s.position.Ready width setting.barred) (k : ℕ) :
    rhs (s.after setting k).position.tableau.objective
      ≤ rhs (s.after setting (k + 1)).position.tableau.objective := by
  rw [after_succ']
  rcases advance_eq_self_or (s.after setting k) setting with hstay | ⟨e, l, hm⟩
  · rw [hstay]
  · have hready := ready_after htol hr k
    have hrhs := hready.rhs_nonneg _ (Tableau.mem_rows_iff.mpr ⟨l, hm.leaving_lt, rfl⟩)
    rw [advance_of_moves hm]
    exact (hm.rhs_objective_le_iff htol.ge hready.hasWidth).mpr hrhs

theorem monotone_rhs_objective (hr : s.position.Ready width setting.barred) :
    Monotone fun k => rhs (s.after setting k).position.tableau.objective :=
  monotone_nat_of_le_succ (rhs_objective_le_after_succ htol hr)

end Exact

end Pivoting.State

end SimplexMethod
