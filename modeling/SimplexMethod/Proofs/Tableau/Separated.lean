import SimplexMethod.Proofs.Tableau.Frame
import SimplexMethod.Proofs.Tableau.System

/-!
# Separated positions

In a separated position each basic column is zero outside its own row. What it is in its own row is
left open, so the slack basis of every problem is separated. Every line reads a point that is zero
outside the basis in at most one column, and an exchange at a nonzero entry makes the new column a
unit vector and changes no other basic column.
-/

namespace SimplexMethod

namespace Position

/-- Every basic column is zero outside its own row, also in the objective row. -/
structure Separated (p : Position ℚ) (width : ℕ) : Prop extends Framed p width where
  nodup : p.basis.Nodup
  entry_eq_zero : ∀ i < p.tableau.height, ∀ j < p.basis.length, i ≠ j →
    p.tableau.entry i (p.basis.getD j 0) = 0

namespace Separated

variable {p : Position ℚ} {width : ℕ} (h : p.Separated width)

include h

/-- The objective row is zero in the basic columns. -/
theorem cost_eq_zero {column : ℕ} (hc : column ∈ p.basis) :
    p.tableau.objective.getD column 0 = 0 := by
  obtain ⟨j, hj, rfl⟩ := List.mem_iff_getElem.mp hc
  have hne : p.tableau.rows.length ≠ j := by
    rw [← h.length_basis]
    exact hj.ne'
  have hentry := h.entry_eq_zero _ (Nat.lt_succ_self _) j hj hne
  rwa [Tableau.entry, Tableau.line_length, List.getD_eq_getElem _ _ hj] at hentry

section Forms

variable {x : ℕ → ℚ} (hx : ∀ j < width, j ∉ p.basis → x j = 0)

include hx

/-- A constraint row reads a point that is zero outside the basis in its own basic column only. -/
theorem formAt_line {i : ℕ} (hi : i < p.tableau.rows.length) :
    formAt (p.tableau.line i) x
      = p.tableau.entry i (p.basis.getD i 0) * x (p.basis.getD i 0) := by
  have hlen := h.hasWidth.length_line (Nat.lt_succ_of_lt hi)
  apply formAt_eq_mul
  · rw [hlen]
    exact h.getD_basis_lt hi
  · intro j hj hne
    rw [hlen] at hj
    by_cases hb : j ∈ p.basis
    · obtain ⟨k, hk, rfl⟩ := List.mem_iff_getElem.mp hb
      have hik : i ≠ k := by
        rintro rfl
        exact hne (List.getD_eq_getElem _ _ hk).symm
      have hzero := h.entry_eq_zero i (Nat.lt_succ_of_lt hi) k hk hik
      rw [List.getD_eq_getElem _ _ hk, Tableau.entry] at hzero
      rw [hzero, zero_mul]
    · rw [hx j hj hb, mul_zero]

/-- The objective row does not read a point that is zero outside the basis. -/
theorem formAt_objective : formAt p.tableau.objective x = 0 := by
  rw [formAt, show p.tableau.objective.length = width + 1 from h.hasWidth.width_eq]
  apply Finset.sum_eq_zero
  intro j hj
  by_cases hb : j ∈ p.basis
  · rw [h.cost_eq_zero hb, zero_mul]
  · rw [hx j (Finset.mem_range.mp hj) hb, mul_zero]

end Forms

section Exchange

variable {row column : ℕ} (hr : row < p.tableau.rows.length)

include hr

/-- An exchange changes no column that is basic in another row. -/
theorem entry_exchange_of_ne (column : ℕ) {j : ℕ} (hj : j < p.basis.length) (hrj : row ≠ j)
    (i : ℕ) :
    (p.tableau.pivot row column).entry i (p.basis.getD j 0)
      = p.tableau.entry i (p.basis.getD j 0) := by
  have hrow := Nat.lt_succ_of_lt hr
  rw [Tableau.entry_pivot h.hasWidth hrow, h.entry_eq_zero row hrow j hj hrj]
  split
  · rename_i heq
    rw [heq, h.entry_eq_zero row hrow j hj hrj, zero_div]
  · ring

/-- Exchanging a basic column for another one at a nonzero entry keeps the columns separated. -/
theorem exchange (hne : p.tableau.entry row column ≠ 0) (hc : column < width)
    (hnew : column ∉ p.basis) :
    Separated ⟨p.tableau.pivot row column, p.basis.set row column⟩ width where
  toFramed := h.toFramed.exchange hr hc
  nodup := h.nodup.set hnew
  entry_eq_zero := by
    intro i hi j hj hij
    replace hj : j < p.basis.length := by simpa using hj
    change (p.tableau.pivot row column).entry i ((p.basis.set row column).getD j 0) = 0
    by_cases hrj : row = j
    · subst hrj
      rw [getD_set_self hj, Tableau.entry_pivot_self h.hasWidth (Nat.lt_succ_of_lt hr) hne,
        if_neg hij]
    · rw [getD_set_of_ne hrj, h.entry_exchange_of_ne hr column hj hrj]
      exact h.entry_eq_zero i (by simpa using hi) j hj hij

end Exchange

end Separated

end Position

end SimplexMethod
