import Mathlib.Algebra.Order.Field.Rat
import Mathlib.Data.Prod.Lex
import SimplexMethod.Pivoting.Choice
import SimplexMethod.Proofs.Tableau.Shape

/-!
# What the choice of a pivot guarantees

Over the rationals a chosen entering column has a cost below the negated tolerance, and a chosen
leaving row has the least ratio. Bland's rule moreover chooses the first such column, and of the
rows of least ratio the one whose basic column comes first.
-/

namespace SimplexMethod

section Least

variable {β κ : Type} [LinearOrder κ] {less : β → β → Bool}

private theorem key_foldl_le (key : β → κ) (hless : ∀ a b, less a b = decide (key a < key b))
    (held : β) (items : List β) :
    ∀ other ∈ held :: items,
      key (items.foldl (fun held next => if less next held then next else held) held)
        ≤ key other := by
  induction items generalizing held with
  | nil => simp
  | cons next items ih =>
    intro other ho
    rw [List.foldl_cons]
    have hbest := ih (if less next held then next else held)
    have hheld := hbest _ List.mem_cons_self
    rw [hless] at hheld hbest ⊢
    rcases List.mem_cons.mp ho with rfl | ho
    · refine hheld.trans ?_
      by_cases hlt : key next < key other <;> simp [hlt, le_of_lt]
    · rcases List.mem_cons.mp ho with rfl | ho
      · refine hheld.trans ?_
        by_cases hlt : key other < key held
        · simp [hlt]
        · simpa [hlt] using not_lt.mp hlt
      · exact hbest other (List.mem_cons_of_mem _ ho)

/-- The first least item is least, if items are compared by a key. -/
theorem key_firstLeast_le (key : β → κ) (hless : ∀ a b, less a b = decide (key a < key b))
    {items : List β} {item : β} (h : firstLeast less items = some item) :
    ∀ other ∈ items, key item ≤ key other := by
  cases items with
  | nil => simp [firstLeast] at h
  | cons first rest =>
    simp only [firstLeast, Option.some.injEq] at h
    exact h ▸ key_foldl_le key hless first rest

end Least

section Entering

variable {costs : List ℚ} {barred : List ℕ} {rule : PivotRule} {tolerance : ℚ} {column : ℕ}

/-- Where no column may enter, no cost is below the negated tolerance. -/
theorem le_cost_of_chooseEntering_eq_none
    (h : chooseEntering costs barred rule tolerance = none) {j : ℕ} (hj : j < costs.length - 1)
    (hb : j ∉ barred) : -tolerance ≤ costs.getD j 0 := by
  have hempty := chooseEntering_eq_none_iff.mp h
  by_contra hlt
  have hmem : j ∈ enteringCandidates costs barred tolerance :=
    mem_enteringCandidates.mpr ⟨hj, hb, not_le.mp hlt⟩
  rw [hempty] at hmem
  exact List.not_mem_nil hmem

/-- No column before the one that Bland's rule lets enter may enter. -/
theorem le_cost_of_lt_chooseEntering
    (h : chooseEntering costs barred .bland tolerance = some column) {j : ℕ} (hj : j < column)
    (hb : j ∉ barred) : -tolerance ≤ costs.getD j 0 := by
  have hfind : (List.range (costs.length - 1)).find?
      (fun j => j ∉ barred ∧ costs.getD j 0 < -tolerance) = some column := by
    rw [← List.head?_filter]
    exact h
  simpa [hb] using (List.find?_range_eq_some.mp hfind).2.2 j hj

end Entering

namespace Tableau

variable {t : Tableau ℚ} {column row : ℕ} {basis : List ℕ} {rule : PivotRule} {tolerance : ℚ}

theorem mem_ratios {ratio : Ratio ℚ} :
    ratio ∈ t.ratios column tolerance ↔
      ratio.row < t.rows.length ∧ tolerance < t.entry ratio.row column ∧
        ratio.value = rhs (t.line ratio.row) / t.entry ratio.row column := by
  rw [ratios, List.mem_filterMap]
  constructor
  · rintro ⟨⟨line, i⟩, hl, hr⟩
    obtain ⟨hi, hline⟩ := mem_zipIdx_iff.mp hl
    have hat : t.line i = line := (t.line_of_lt hi).trans hline
    dsimp only at hr
    split at hr
    · rename_i hlt
      obtain rfl := Option.some.inj hr
      exact ⟨hi, by rw [entry, hat]; exact hlt, by rw [entry, hat]⟩
    · simp at hr
  · rintro ⟨hi, hlt, hvalue⟩
    refine ⟨(t.line ratio.row, ratio.row), ?_, ?_⟩
    · exact mem_zipIdx_iff.mpr ⟨hi, (t.line_of_lt hi).symm⟩
    · dsimp only
      rw [entry] at hlt hvalue
      rw [if_pos hlt, ← hvalue]

theorem ratio_mem_ratios {i : ℕ} (hi : i < t.rows.length) (h : tolerance < t.entry i column) :
    ⟨i, rhs (t.line i) / t.entry i column⟩ ∈ t.ratios column tolerance :=
  mem_ratios.mpr ⟨hi, h, rfl⟩

/-- Bland's ranking compares the ratio first and then the basic column. -/
theorem precedesIn_eq (basis : List ℕ) (a b : Ratio ℚ) :
    Ratio.precedesIn basis a b
      = decide (toLex (a.value, basis.getD a.row 0) < toLex (b.value, basis.getD b.row 0)) := by
  rw [Bool.eq_iff_iff, decide_eq_true_iff, Prod.Lex.toLex_lt_toLex, Ratio.precedesIn]
  by_cases heq : a.value = b.value
  · simp [heq]
  · simp [heq, Ratio.precedes]

/-- A chosen row has an entry above the tolerance and, among such rows, the least ratio. -/
theorem chooseLeaving_least (h : t.chooseLeaving column basis rule tolerance = some row) :
    row < t.rows.length ∧ tolerance < t.entry row column ∧
      ∀ i < t.rows.length, tolerance < t.entry i column →
        rhs (t.line row) / t.entry row column ≤ rhs (t.line i) / t.entry i column := by
  obtain ⟨ratio, hratio, rfl⟩ := Option.map_eq_some_iff.mp h
  have hleast : ∀ other ∈ t.ratios column tolerance, ratio.value ≤ other.value := by
    cases rule with
    | dantzig => exact key_firstLeast_le Ratio.value (fun _ _ => rfl) hratio
    | bland =>
      intro other ho
      have hkey := key_firstLeast_le
        (fun ratio : Ratio ℚ => toLex (ratio.value, basis.getD ratio.row 0))
        (precedesIn_eq basis) hratio other ho
      rcases Prod.Lex.toLex_le_toLex.mp hkey with hlt | heq
      · exact hlt.le
      · exact heq.1.le
  have hmem : ratio ∈ t.ratios column tolerance := by
    cases rule <;> exact firstLeast_mem hratio
  obtain ⟨hrow, hlt, hvalue⟩ := mem_ratios.mp hmem
  refine ⟨hrow, hlt, ?_⟩
  intro i hi hentry
  rw [← hvalue]
  exact hleast _ (ratio_mem_ratios hi hentry)

/-- Of the rows of least ratio, Bland's rule chooses the one whose basic column comes first. -/
theorem chooseLeaving_bland (h : t.chooseLeaving column basis .bland tolerance = some row) {i : ℕ}
    (hi : i < t.rows.length) (hentry : tolerance < t.entry i column)
    (htie : rhs (t.line i) / t.entry i column = rhs (t.line row) / t.entry row column) :
    basis.getD row 0 ≤ basis.getD i 0 := by
  obtain ⟨ratio, hratio, rfl⟩ := Option.map_eq_some_iff.mp h
  obtain ⟨-, -, hvalue⟩ := mem_ratios.mp (firstLeast_mem hratio)
  have hkey := key_firstLeast_le
    (fun ratio : Ratio ℚ => toLex (ratio.value, basis.getD ratio.row 0))
    (precedesIn_eq basis) hratio _ (ratio_mem_ratios hi hentry)
  rcases Prod.Lex.toLex_le_toLex.mp hkey with hlt | heq
  · exact absurd (hvalue.trans htie.symm) hlt.ne
  · exact heq.2

/-- Where no row may leave, no entry of the column exceeds the tolerance. -/
theorem entry_le_of_chooseLeaving_eq_none
    (h : t.chooseLeaving column basis rule tolerance = none) {i : ℕ} (hi : i < t.rows.length) :
    t.entry i column ≤ tolerance := by
  have hempty := chooseLeaving_eq_none_iff.mp h
  by_contra hlt
  have hmem := ratio_mem_ratios hi (not_le.mp hlt)
  rw [hempty] at hmem
  exact List.not_mem_nil hmem

end Tableau

end SimplexMethod
