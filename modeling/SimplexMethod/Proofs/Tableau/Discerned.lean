import SimplexMethod.Proofs.Tableau.BasicPoint

/-!
# Numbers that a tolerance tells from zero

A tolerance discerns a number if it does not take it for zero by mistake. A system is discerned in
its rows, or in its costs, if this is so in every canonical tableau that states it, whatever the
basis. Without a tolerance everything is discerned.
-/

namespace SimplexMethod

theorem magnitude_eq_abs (a : ℚ) : Scalar.magnitude a = |a| := by
  unfold Scalar.magnitude
  split
  · rename_i hneg
    rw [abs_of_neg hneg]
  · rename_i hneg
    rw [abs_of_nonneg (not_lt.mp hneg)]

/-- The tolerance takes the number for zero only if it is zero. -/
def Discerned (tolerance a : ℚ) : Prop :=
  |a| ≤ tolerance → a = 0

namespace Discerned

variable {tolerance a : ℚ}

theorem of_eq_zero (htol : tolerance = 0) (a : ℚ) : Discerned tolerance a :=
  fun hle => abs_nonpos_iff.mp (hle.trans_eq htol)

/-- A change of sign does not matter. -/
theorem mul_left (h : Discerned tolerance a) {sign : ℚ} (hsign : |sign| = 1) :
    Discerned tolerance (sign * a) := by
  intro hle
  rw [abs_mul, hsign, one_mul] at hle
  rw [h hle, mul_zero]

theorem neg (h : Discerned tolerance a) : Discerned tolerance (-a) :=
  neg_one_mul a ▸ h.mul_left (by norm_num)

theorem nonpos_of_le (h : Discerned tolerance a) (hle : a ≤ tolerance) : a ≤ 0 := by
  by_contra hpos
  have hlt := not_le.mp hpos
  exact hlt.ne' (h ((abs_of_pos hlt).trans_le hle))

theorem nonneg_of_neg_le (h : Discerned tolerance a) (hle : -tolerance ≤ a) : 0 ≤ a := by
  by_contra hneg
  have hlt := not_le.mp hneg
  exact hlt.ne (h ((abs_of_neg hlt).trans_le (neg_le.mp hle)))

end Discerned

/-- The position is canonical and states the system of the tableau. -/
structure Position.Restates (q : Position ℚ) (t : Tableau ℚ) (width : ℕ) : Prop where
  hasWidth : q.tableau.HasWidth (width + 1)
  canonical : q.Canonical
  agrees : t.Agrees q.tableau

namespace Tableau

/-- In whatever basis the system is written, the tolerance discerns the entries of its rows. -/
def RowsDiscerned (t : Tableau ℚ) (tolerance : ℚ) (width : ℕ) : Prop :=
  ∀ q : Position ℚ, q.Restates t width →
    ∀ i < q.tableau.rows.length, ∀ j < width, Discerned tolerance (q.tableau.entry i j)

/-- In whatever basis the system is written, the tolerance discerns the costs of its columns. -/
def CostsDiscerned (t : Tableau ℚ) (tolerance : ℚ) (width : ℕ) : Prop :=
  ∀ q : Position ℚ, q.Restates t width →
    ∀ j < width, Discerned tolerance (q.tableau.objective.getD j 0)

variable {t u : Tableau ℚ} {tolerance : ℚ} {width : ℕ}

theorem RowsDiscerned.of_eq_zero (htol : tolerance = 0) (t : Tableau ℚ) (width : ℕ) :
    t.RowsDiscerned tolerance width :=
  fun _ _ _ _ _ _ => Discerned.of_eq_zero htol _

theorem CostsDiscerned.of_eq_zero (htol : tolerance = 0) (t : Tableau ℚ) (width : ℕ) :
    t.CostsDiscerned tolerance width :=
  fun _ _ _ _ => Discerned.of_eq_zero htol _

/-- Tableaux that agree state one system. -/
theorem RowsDiscerned.of_agrees (h : t.RowsDiscerned tolerance width) (hagrees : t.Agrees u) :
    u.RowsDiscerned tolerance width :=
  fun q hq => h q ⟨hq.hasWidth, hq.canonical, hagrees.trans hq.agrees⟩

theorem CostsDiscerned.of_agrees (h : t.CostsDiscerned tolerance width) (hagrees : t.Agrees u) :
    u.CostsDiscerned tolerance width :=
  fun q hq => h q ⟨hq.hasWidth, hq.canonical, hagrees.trans hq.agrees⟩

end Tableau

end SimplexMethod
