import SimplexMethod.Proofs.Pivoting.Endings

/-!
# Objective rows that tell the value of a position

A run need not start from a canonical position: in its own row a slack column may be negative or
zero. What holds at the start and is kept by every pivot is that each basic column is zero outside
its own row. A row is settled once its basic column has a one in it, as every row has in which a
pivot was made. The basic point solves the settled rows, and on all points that solve them the
objective row states the costs. So its right-hand side tells what the basic point costs, whether or
not the other rows are solved.
-/

namespace SimplexMethod

namespace Position

/-- The basic column of the row has a one in it. -/
def Settled (p : Position ℚ) (row : ℕ) : Prop :=
  p.tableau.entry row (p.basis.getD row 0) = 1

/-- The point has no gap in any settled row. -/
def SettledBy (p : Position ℚ) (x : ℕ → ℚ) : Prop :=
  ∀ i < p.tableau.rows.length, p.Settled i → gap (p.tableau.line i) x = 0

/-- On the points that solve the settled rows the objective row states the costs. -/
structure Priced (p : Position ℚ) (costs : List ℚ) (width : ℕ) : Prop
    extends Separated p width where
  gap_eq : ∀ x, p.SettledBy x → gap p.tableau.objective x = linearForm costs x

namespace Separated

variable {p : Position ℚ} {width : ℕ} (h : p.Separated width)

include h

section Exchange

variable {row column : ℕ} (hr : row < p.tableau.rows.length)

include hr

/-- An exchange settles no other row and unsettles none. -/
theorem settled_exchange_iff (column : ℕ) {i : ℕ} (hi : i < p.tableau.rows.length)
    (hri : row ≠ i) :
    Settled ⟨p.tableau.pivot row column, p.basis.set row column⟩ i ↔ p.Settled i := by
  change (p.tableau.pivot row column).entry i ((p.basis.set row column).getD i 0) = 1 ↔ _
  rw [getD_set_of_ne hri, h.entry_exchange_of_ne hr column (h.length_basis ▸ hi) hri, Settled]

variable (hne : p.tableau.entry row column ≠ 0)

include hne

/-- An exchange settles its row. -/
theorem settled_exchange_self :
    Settled ⟨p.tableau.pivot row column, p.basis.set row column⟩ row := by
  change (p.tableau.pivot row column).entry row ((p.basis.set row column).getD row 0) = 1
  rw [getD_set_self (h.length_basis ▸ hr),
    Tableau.entry_pivot_self h.hasWidth (Nat.lt_succ_of_lt hr) hne, if_pos rfl]

/-- What solves the settled rows after an exchange solved them before it. -/
theorem settledBy_of_exchange {x : ℕ → ℚ}
    (hx : SettledBy ⟨p.tableau.pivot row column, p.basis.set row column⟩ x) :
    p.SettledBy x ∧ gap (p.tableau.line row) x = 0 := by
  have hrow : row < p.tableau.height := Nat.lt_succ_of_lt hr
  have hgap : ∀ i < p.tableau.rows.length,
      Settled ⟨p.tableau.pivot row column, p.basis.set row column⟩ i →
        gap ((p.tableau.pivot row column).line i) x = 0 := by
    intro i hi
    exact hx i (by simpa using hi)
  have hown : gap (p.tableau.line row) x = 0 :=
    Tableau.gap_line_eq_zero_of_pivot h.hasWidth hrow hne
      (hgap row hr (h.settled_exchange_self hr hne))
  refine ⟨?_, hown⟩
  intro i hi hsettled
  by_cases hri : row = i
  · exact hri ▸ hown
  · rw [← Tableau.gap_line_pivot_of_eq_zero h.hasWidth hrow hown column (Nat.lt_succ_of_lt hi)]
    exact hgap i hi ((h.settled_exchange_iff hr column hi hri).mpr hsettled)

end Exchange

/-- The basic point solves the settled rows. -/
theorem settledBy_point : p.SettledBy p.point := by
  intro i hi hsettled
  have hib : i < p.basis.length := h.length_basis ▸ hi
  rw [gap, h.formAt_line (fun _ _ => point_of_notMem) hi,
    show p.tableau.entry i (p.basis.getD i 0) = 1 from hsettled, one_mul,
    List.getD_eq_getElem _ _ hib, point_getElem h.nodup hib, sub_self]

theorem gap_objective_point : gap p.tableau.objective p.point = -rhs p.tableau.objective := by
  rw [gap, h.formAt_objective fun _ _ => point_of_notMem, zero_sub]

end Separated

namespace Priced

variable {p : Position ℚ} {costs : List ℚ} {width : ℕ} (h : p.Priced costs width)

include h

/-- The right-hand side of the objective row is the negated cost of the basic point. -/
theorem rhs_objective : rhs p.tableau.objective = -linearForm costs p.point := by
  rw [← h.gap_eq _ h.settledBy_point, h.gap_objective_point, neg_neg]

/-- An exchange at a nonzero entry keeps the objective row the costs on what solves the settled
rows: the row of the exchange is among them. -/
theorem exchange {row column : ℕ} (hr : row < p.tableau.rows.length) (hc : column < width)
    (hnew : column ∉ p.basis) (hne : p.tableau.entry row column ≠ 0) :
    Priced ⟨p.tableau.pivot row column, p.basis.set row column⟩ costs width where
  toSeparated := h.toSeparated.exchange hr hne hc hnew
  gap_eq := by
    intro x hx
    obtain ⟨hbefore, hown⟩ := h.settledBy_of_exchange hr hne hx
    rw [← h.gap_eq x hbefore]
    exact Tableau.gap_objective_pivot_of_eq_zero h.hasWidth (Nat.lt_succ_of_lt hr) hown column

end Priced

/-- A regular position is priced if its objective row states the costs on all its solutions. -/
theorem Regular.priced {p : Position ℚ} {costs : List ℚ} {width : ℕ} {barred : List ℕ}
    (h : p.Regular width barred)
    (hgap : ∀ x, p.tableau.SolvedBy x → gap p.tableau.objective x = linearForm costs x) :
    p.Priced costs width where
  toSeparated := h.canonical.separated h.hasWidth
  gap_eq := by
    intro x hx
    apply hgap x
    apply Tableau.solvedBy_iff.mpr
    intro i hi
    apply hx i hi
    have hib : i < p.basis.length := h.canonical.length_eq ▸ hi
    rw [Settled, List.getD_eq_getElem _ _ hib,
      h.canonical.entry_getElem (Nat.lt_succ_of_lt hi) hib, if_pos rfl]

end Position

namespace Pivoting.State

variable {s : State ℚ} {setting : Setting ℚ} {costs : List ℚ} {width : ℕ}
  (htol : 0 ≤ setting.tolerance)

include htol

/-- A pivot keeps a position priced: its column has a negative cost, so it is not basic. -/
theorem Moves.priced {entering leaving : ℕ} (h : s.Moves setting entering leaving)
    (hp : s.position.Priced costs width) : (s.moved entering leaving).Priced costs width := by
  have hnew : entering ∉ s.position.basis :=
    h.entering_notMem_of_cleared htol fun _ => hp.cost_eq_zero
  exact hp.exchange h.leaving_lt (h.entering_lt hp.hasWidth) hnew (h.entry_pos htol).ne'

/-- Every state of a run is priced if the first one is. -/
theorem priced_after (hp : s.position.Priced costs width) (k : ℕ) :
    (s.after setting k).position.Priced costs width := by
  refine after_induction (fun t => t.position.Priced costs width) hp ?_ k
  intro t entering leaving ht hm
  exact hm.priced htol ht

end Pivoting.State

/-- A run visits priced positions if it starts from one. -/
theorem Position.Priced.of_visits {p q : Position ℚ} {costs : List ℚ} {width : ℕ}
    {options : Options ℚ} {barred : List ℕ} (h : p.Priced costs width)
    (htol : 0 ≤ options.tolerance) (hv : p.Visits options barred q) : q.Priced costs width := by
  obtain ⟨k, rfl⟩ := hv
  exact Pivoting.State.priced_after (s := p.state options)
    (show 0 ≤ (options.setting barred).tolerance from htol) h k

end SimplexMethod
