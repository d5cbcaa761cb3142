import SimplexMethod.Proofs.Pivoting.Lockstep
import SimplexMethod.Proofs.Pivoting.Snapshots
import SimplexMethod.Proofs.Rows

/-!
# Scaled costs

If nothing is tolerated, multiplying the objective row by a positive number changes no choice: the
sign of a cost and the order of two costs stay, and the ratio test does not read the objective row.
A pivot of a constraint row commutes with the scaling, so the run is the same up to the scaled
objective row.
-/

namespace SimplexMethod

/-- Multiply every entry of a row. -/
def scaleBy (factor : ℚ) (row : List ℚ) : List ℚ :=
  row.map (factor * ·)

section Rows

variable {factor : ℚ}

@[simp] theorem length_scaleBy (factor : ℚ) (row : List ℚ) :
    (scaleBy factor row).length = row.length := by
  simp [scaleBy]

@[simp] theorem getD_scaleBy (factor : ℚ) (row : List ℚ) (j : ℕ) :
    (scaleBy factor row).getD j 0 = factor * row.getD j 0 := by
  simp only [scaleBy, List.getD, List.getElem?_map]
  cases row[j]? <;> simp

theorem rhs_scaleBy (factor : ℚ) (row : List ℚ) : rhs (scaleBy factor row) = factor * rhs row := by
  rw [rhs_eq_getD, rhs_eq_getD row, getD_scaleBy, length_scaleBy]

/-- Clearing a column commutes with the scaling of the row that it is cleared from. -/
theorem cancel_scaleBy (hne : factor ≠ 0) (column : ℕ) (source target : List ℚ) :
    cancel column source (scaleBy factor target)
      = scaleBy factor (cancel column source target) := by
  unfold cancel
  rw [getD_scaleBy]
  by_cases hzero : target.getD column 0 = 0
  · simp only [hzero, mul_zero, bne_self_eq_false, Bool.false_eq_true, if_false]
  · have hscaled : factor * target.getD column 0 ≠ 0 := mul_ne_zero hne hzero
    simp only [bne_iff_ne, hscaled, hzero, ne_eq, not_false_eq_true, if_true]
    rw [subtractMultiple, subtractMultiple, scaleBy, scaleBy, List.zipWith_map_left,
      List.map_zipWith]
    congr 1
    funext a b
    ring

end Rows

/-- The tableau with its objective row multiplied. -/
def Tableau.scaled (t : Tableau ℚ) (factor : ℚ) : Tableau ℚ :=
  { t with objective := scaleBy factor t.objective }

/-- The position with its objective row multiplied. -/
def Position.scaled (p : Position ℚ) (factor : ℚ) : Position ℚ :=
  { p with tableau := p.tableau.scaled factor }

/-- The pivot with the objective row multiplied. -/
def Pivot.scaled (pivot : Pivot ℚ) (factor : ℚ) : Pivot ℚ :=
  { pivot with after := pivot.after.scaled factor }

/-- The run with all objective rows multiplied. -/
def Run.scaled (run : Run ℚ) (factor : ℚ) : Run ℚ where
  pivots := run.pivots.map (·.scaled factor)
  ending := run.ending
  last := run.last.scaled factor

/-- The snapshot with its objective row multiplied. -/
def Snapshot.scaled (snapshot : Snapshot ℚ) (factor : ℚ) : Snapshot ℚ :=
  { snapshot with position := snapshot.position.scaled factor }

namespace Tableau

variable {t : Tableau ℚ} {row : ℕ}

theorem line_scaled (hr : row < t.rows.length) (factor : ℚ) :
    (t.scaled factor).line row = t.line row :=
  (line_eq_of_rows_eq (show t.rows = (t.scaled factor).rows from rfl) hr).symm

theorem entry_scaled (hr : row < t.rows.length) (factor : ℚ) (column : ℕ) :
    (t.scaled factor).entry row column = t.entry row column := by
  rw [entry, line_scaled hr, entry]

theorem HasWidth.scaled {width : ℕ} (h : t.HasWidth width) (factor : ℚ) :
    (t.scaled factor).HasWidth width :=
  h.withObjective ((length_scaleBy factor _).trans h.width_eq)

/-- A pivot of a constraint row commutes with the scaling. -/
theorem pivot_scaled {factor : ℚ} (hne : factor ≠ 0) (hr : row < t.rows.length) (column : ℕ) :
    (t.scaled factor).pivot row column = (t.pivot row column).scaled factor := by
  rw [pivot, line_scaled hr, entry_scaled hr, pivot, mapLines, mapLines, scaled, scaled,
    if_neg hr.ne', if_neg hr.ne', cancel_scaleBy hne]

end Tableau

section Choice

variable {factor : ℚ} (hfactor : 0 < factor)

include hfactor

theorem enteringCandidates_scaleBy (costs : List ℚ) (barred : List ℕ) :
    enteringCandidates (scaleBy factor costs) barred 0 = enteringCandidates costs barred 0 := by
  have hsign : ∀ a : ℚ, factor * a < -0 ↔ a < -0 := by
    intro a
    have hlt := mul_lt_mul_iff_right₀ hfactor (b := a) (c := 0)
    rwa [mul_zero, ← neg_zero] at hlt
  rw [enteringCandidates, length_scaleBy]
  simp only [getD_scaleBy, hsign, enteringCandidates]

/-- The same column enters. -/
theorem chooseEntering_scaleBy (costs : List ℚ) (barred : List ℕ) (rule : PivotRule) :
    chooseEntering (scaleBy factor costs) barred rule 0 = chooseEntering costs barred rule 0 := by
  have horder : ∀ a b : ℚ, factor * a < factor * b ↔ a < b := fun _ _ =>
    mul_lt_mul_iff_right₀ hfactor
  unfold chooseEntering
  simp only [enteringCandidates_scaleBy hfactor, getD_scaleBy, horder]

end Choice

namespace Pivoting

variable {setting : Setting ℚ} {factor : ℚ}

/-- The state with the objective row multiplied. -/
def State.scaled (s : State ℚ) (factor : ℚ) : State ℚ :=
  { s with position := s.position.scaled factor }

theorem State.choosesAlike_scaled (htol : setting.tolerance = 0) (hfactor : 0 < factor)
    (s : State ℚ) : s.ChoosesAlike (s.scaled factor) setting setting where
  entering_eq := by
    rw [entering?, entering?, htol]
    exact chooseEntering_scaleBy hfactor _ _ _
  leaving_eq := fun _ => rfl
  lacksColumn_eq := fun _ _ => rfl

theorem State.record_scaled (hne : factor ≠ 0) {s : State ℚ} {entering leaving : ℕ}
    (hl : s.leaving? setting entering = some leaving) :
    (s.scaled factor).record setting entering leaving
      = (s.record setting entering leaving).scaled factor := by
  obtain ⟨ratio, hratio, rfl⟩ := Tableau.chooseLeaving_mem hl
  have hrow := Tableau.row_lt_of_mem_ratios hratio
  have hmoved : (s.scaled factor).moved entering ratio.row
      = (s.moved entering ratio.row).scaled factor := by
    rw [moved, moved, Position.scaled, ← Tableau.pivot_scaled hne hrow]
    rfl
  have helement : (s.scaled factor).position.tableau.entry ratio.row entering
      = s.position.tableau.entry ratio.row entering :=
    Tableau.entry_scaled hrow factor entering
  rw [record, hmoved, helement]
  rfl

theorem run_scaled (htol : setting.tolerance = 0) (hfactor : 0 < factor) (budget : ℕ)
    (s : State ℚ) :
    run setting budget (s.scaled factor) = (run setting budget s).scaled factor := by
  refine run_pair_induction (fun u v => v = u.scaled factor)
    (motive := fun _ _ _ run other => other = run.scaled factor) ?_ ?_ ?_ budget rfl
  · rintro u _ rfl
    exact u.choosesAlike_scaled htol hfactor
  · rintro _ u _ ending rfl
    rfl
  · rintro budget u _ entering leaving rfl hl ih
    have hlater : run setting budget
        ((u.scaled factor).next ((u.record setting entering leaving).scaled factor))
        = (run setting budget (u.next (u.record setting entering leaving))).scaled factor :=
      ih _ _ rfl
    rw [State.record_scaled hfactor.ne' hl, hlater]
    rfl

end Pivoting

theorem Position.run_scaled (p : Position ℚ) {options : Options ℚ} (htol : options.tolerance = 0)
    {factor : ℚ} (hfactor : 0 < factor) (barred : List ℕ) (budget : ℕ) :
    (p.scaled factor).run options barred budget
      = (p.run options barred budget).scaled factor :=
  Pivoting.run_scaled (show (options.setting barred).tolerance = 0 from htol) hfactor budget
    (p.state options)

theorem Run.snapshots_scaled (run : Run ℚ) (factor : ℚ) (phase : ℤ) (earlier : ℕ) :
    (run.scaled factor).snapshots phase earlier
      = (run.snapshots phase earlier).map (·.scaled factor) := by
  apply List.ext_getElem
  · simp [snapshots, scaled]
  · intro i _ _
    simp [snapshots, scaled, Pivot.scaled, Snapshot.scaled]

@[simp] theorem Run.iterations_scaled (run : Run ℚ) (factor : ℚ) :
    (run.scaled factor).iterations = run.iterations := by
  simp [iterations, scaled]

end SimplexMethod
