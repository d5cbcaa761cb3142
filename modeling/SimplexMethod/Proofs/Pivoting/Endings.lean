import SimplexMethod.Proofs.Pivoting.Progress

/-!
# What the ending of a run says

A run from a regular position ends in a regular position that states what the first one states.
If it ends because no column may enter and the tolerance discerns the costs, its basic point is the
cheapest admitted solution. If the tolerance discerns the rows, a run from a ready position ends in
a ready position; and if no row may leave there, admitted solutions are cheaper than every bound.
-/

namespace SimplexMethod

/-- A falling line falls below every bound. -/
theorem exists_nonneg_add_mul_lt {slope : ℚ} (h : slope < 0) (value bound : ℚ) :
    ∃ a, 0 ≤ a ∧ value + a * slope < bound := by
  rcases lt_or_ge value bound with hlt | hle
  · exact ⟨0, le_rfl, by linarith⟩
  · refine ⟨(value - bound + 1) / -slope, div_nonneg (by linarith) (by linarith), ?_⟩
    have hcancel : (value - bound + 1) / -slope * slope = -(value - bound + 1) := by
      rw [div_mul_eq_mul_div, div_neg, mul_div_assoc, div_self h.ne, mul_one]
    linarith

namespace Position

section Regular

variable {p : Position ℚ} {width : ℕ} {barred : List ℕ} {options : Options ℚ}
  (h : p.Regular width barred)

include h

theorem Regular.traces (options : Options ℚ) (budget : ℕ) :
    Pivoting.Traces (options.setting barred) budget (p.state options)
      (p.run options barred budget) :=
  p.traces h.canonical.length_eq.ge options barred budget

variable (htol : 0 ≤ options.tolerance)

include htol

/-- A run visits regular positions that agree with its start. -/
theorem Regular.of_visits {q : Position ℚ} (hv : p.Visits options barred q) :
    q.Regular width barred ∧ p.tableau.Agrees q.tableau := by
  obtain ⟨k, rfl⟩ := hv
  exact Pivoting.State.regular_after (s := p.state options)
    (show 0 ≤ (options.setting barred).tolerance from htol) h k

/-- Columns that are zero stay so during a run. -/
theorem Regular.vanishes_of_visits {q : Position ℚ} {columns : List ℕ}
    (hlt : ∀ j ∈ columns, j < width) (hz : p.tableau.Vanishes columns)
    (hv : p.Visits options barred q) : q.tableau.Vanishes columns := by
  obtain ⟨hq, hagrees⟩ := h.of_visits htol hv
  have hsolved := h.canonical.solvedBy_point h.hasWidth
  exact hagrees.vanishes h.hasWidth hq.hasWidth hsolved hlt hz

theorem Regular.regular_last_run (budget : ℕ) :
    (p.run options barred budget).last.Regular width barred :=
  (h.of_visits htol (h.framed.visits_last_run options barred budget)).1

theorem Regular.agrees_last_run (budget : ℕ) :
    p.tableau.Agrees (p.run options barred budget).last.tableau :=
  (h.of_visits htol (h.framed.visits_last_run options barred budget)).2

theorem Regular.solvedBy_last_point (budget : ℕ) :
    p.tableau.SolvedBy (p.run options barred budget).last.point := by
  have hlast := h.regular_last_run htol budget
  exact ((h.agrees_last_run htol budget).solvedBy_iff _).mpr
    (hlast.canonical.solvedBy_point hlast.hasWidth)

/-- The objective at the last basic point. -/
theorem Regular.gap_last_point (budget : ℕ) :
    gap p.tableau.objective (p.run options barred budget).last.point
      = -rhs (p.run options barred budget).last.tableau.objective := by
  have hlast := h.regular_last_run htol budget
  rw [(h.agrees_last_run htol budget).gap_eq _ (h.solvedBy_last_point htol budget),
    hlast.canonical.gap_objective_point hlast.hasWidth]

/-- Where no column may enter, no column that may grow has a negative cost. -/
theorem Regular.cost_nonneg_last_run (hd : p.tableau.CostsDiscerned options.tolerance width)
    {budget : ℕ} (hend : (p.run options barred budget).ending = .optimal) {j : ℕ} (hj : j < width)
    (hb : j ∉ barred) : 0 ≤ (p.run options barred budget).last.tableau.objective.getD j 0 := by
  have hlast := h.regular_last_run htol budget
  have htraces := h.traces options budget
  have hnone := htraces.ends
  rw [hend] at hnone
  have hlen : (p.run options barred budget).last.tableau.objective.length = width + 1 :=
    hlast.hasWidth.width_eq
  have hdiscerned := hd _ (hlast.restates (h.agrees_last_run htol budget)) j hj
  rw [htraces.last_eq] at hlen hdiscerned ⊢
  exact hdiscerned.nonneg_of_neg_le
    (le_cost_of_chooseEntering_eq_none hnone (j := j) (by omega) hb)

/-- Where no column may enter, no admitted solution is cheaper than the last basic point. -/
theorem Regular.gap_last_point_le (hd : p.tableau.CostsDiscerned options.tolerance width)
    {budget : ℕ} (hend : (p.run options barred budget).ending = .optimal) {x : ℕ → ℚ}
    (hs : p.tableau.SolvedBy x) (hx : ∀ j < width, 0 ≤ x j) (hbarred : ∀ j ∈ barred, x j = 0) :
    gap p.tableau.objective (p.run options barred budget).last.point
      ≤ gap p.tableau.objective x := by
  have hlast := h.regular_last_run htol budget
  have hagrees := h.agrees_last_run htol budget
  rw [hagrees.gap_eq _ (h.solvedBy_last_point htol budget), hagrees.gap_eq x hs]
  exact hlast.canonical.gap_point_le hlast.hasWidth
    (fun _ hj hb => h.cost_nonneg_last_run htol hd hend hj hb) hx hbarred

/-- Where no row may leave, the entering column has a cost below the negated tolerance and no entry
above the tolerance. -/
theorem Regular.unlimited_last_run {budget column : ℕ}
    (hend : (p.run options barred budget).ending = .unbounded column) :
    column < width ∧
      (p.run options barred budget).last.tableau.objective.getD column 0 < -options.tolerance ∧
      ∀ i < (p.run options barred budget).last.tableau.rows.length,
        (p.run options barred budget).last.tableau.entry i column ≤ options.tolerance := by
  have hlast := h.regular_last_run htol budget
  have htraces := h.traces options budget
  have hends := htraces.ends
  rw [hend] at hends
  obtain ⟨henters, hleaves⟩ := hends
  obtain ⟨hlt, -, hcost⟩ := mem_enteringCandidates.mp (chooseEntering_mem henters)
  rw [← htraces.last_eq] at hlt hcost
  have hlen : (p.run options barred budget).last.tableau.objective.length = width + 1 :=
    hlast.hasWidth.width_eq
  refine ⟨by omega, hcost, ?_⟩
  intro i hi
  rw [htraces.last_eq] at hi ⊢
  exact Tableau.entry_le_of_chooseLeaving_eq_none hleaves hi

end Regular

namespace Ready

variable {p : Position ℚ} {width : ℕ} {barred : List ℕ} {options : Options ℚ}
  (h : p.Ready width barred)

include h

/-- If no row limits a column of negative cost, solutions along the column fall below every
bound. -/
theorem exists_gap_lt_of_entry_le {column : ℕ} (hc : column < width)
    (hcost : p.tableau.objective.getD column 0 < 0)
    (hentry : ∀ i < p.tableau.rows.length, p.tableau.entry i column ≤ 0) (bound : ℚ) :
    ∃ x, p.tableau.SolvedBy x ∧ (∀ j, 0 ≤ x j) ∧ gap p.tableau.objective x < bound := by
  obtain ⟨a, ha, hlt⟩ := exists_nonneg_add_mul_lt hcost (-rhs p.tableau.objective) bound
  refine ⟨fun j => p.point j + a * p.direction column j,
    h.canonical.solvedBy_ray h.hasWidth hc a, ?_, ?_⟩
  · intro j
    exact add_nonneg (h.point_nonneg j)
      (mul_nonneg ha (direction_nonneg h.canonical.length_eq hentry j))
  · rw [h.canonical.gap_objective_ray h.hasWidth hc]
    exact hlt

variable (htol : 0 ≤ options.tolerance) (hd : p.tableau.RowsDiscerned options.tolerance width)

include htol hd

/-- A run visits ready positions. -/
theorem of_visits {q : Position ℚ} (hv : p.Visits options barred q) : q.Ready width barred := by
  obtain ⟨k, rfl⟩ := hv
  exact Pivoting.State.ready_after_of_discerned (s := p.state options)
    (show 0 ≤ (options.setting barred).tolerance from htol) hd h k

theorem last_run (budget : ℕ) : (p.run options barred budget).last.Ready width barred :=
  h.of_visits htol hd (h.framed.visits_last_run options barred budget)

/-- Where no row may leave, admitted solutions are cheaper than every bound. -/
theorem exists_gap_lt {budget column : ℕ}
    (hend : (p.run options barred budget).ending = .unbounded column)
    (bound : ℚ) :
    ∃ x, p.tableau.SolvedBy x ∧ (∀ j, 0 ≤ x j) ∧ gap p.tableau.objective x < bound := by
  have hlast := h.last_run htol hd budget
  have hagrees := h.agrees_last_run htol budget
  obtain ⟨hlt, hcost, hentry⟩ := h.unlimited_last_run htol hend
  have hnonpos : ∀ i < (p.run options barred budget).last.tableau.rows.length,
      (p.run options barred budget).last.tableau.entry i column ≤ 0 := fun i hi =>
    (hd _ (hlast.restates hagrees) i hi column hlt).nonpos_of_le (hentry i hi)
  obtain ⟨x, hs, hx, hbound⟩ := hlast.exists_gap_lt_of_entry_le hlt
    (hcost.trans_le (neg_nonpos.mpr htol)) hnonpos bound
  have hs' := (hagrees.solvedBy_iff x).mpr hs
  exact ⟨x, hs', hx, (hagrees.gap_eq x hs').trans_lt hbound⟩

end Ready

end Position

end SimplexMethod
