import SimplexMethod.Proofs.Pivoting.Guard
import SimplexMethod.Proofs.Pivoting.Progress
import SimplexMethod.Proofs.Tableau.Unique

/-!
# Bases that recur

All runs from a canonical position restate its system, so a basis determines the tableau whatever
the pivots that led to it. Without the guard a run does not look back, so from a position that it
was in before it goes round for ever. Hence a run that ends has met no basis twice, and the guard
would not have changed it.
-/

namespace SimplexMethod

section Nodup

variable {β : Type} {items : List β}

/-- Nothing recurs among items that are pairwise distinct. -/
theorem not_recurs_of_nodup (h : items.Nodup) (place : ℕ) : ¬ Recurs [] items place := by
  rintro ⟨item, hitem, hold | hbefore⟩
  · exact List.not_mem_nil hold
  · obtain ⟨hplace, rfl⟩ := List.getElem?_eq_some_iff.mp hitem
    obtain ⟨earlier, hearlier, heq⟩ := List.mem_take_iff_getElem.mp hbefore
    have hlt : earlier < place := (lt_min_iff.mp hearlier).1
    exact hlt.ne (h.getElem_inj_iff.mp heq)

end Nodup

namespace Pivoting

section Unguarded

variable {α : Type} [Scalar α] {setting : Setting α} {s t : State α}

namespace State

/-- Without the guard the rule stays. -/
theorem rule_after_withGuard_false (k : ℕ) :
    (s.after (setting.withGuard false) k).rule = s.rule := by
  refine after_induction (fun u => u.rule = s.rule) rfl ?_ k
  intro u entering leaving hu _
  have hkeeps := switches_eq_false (s := u) setting (.inl rfl) (u.moved entering leaving)
  simpa [next, record, hkeeps] using hu

/-- Without the guard the next position depends on the position and the rule only. -/
theorem position_advance_congr (setting : Setting α) (hposition : t.position = s.position)
    (hrule : t.rule = s.rule) :
    (t.advance (setting.withGuard false)).position
      = (s.advance (setting.withGuard false)).position := by
  have halike := choosesAlike_withGuard setting hposition hrule false false
  rw [advance, advance, halike.entering_eq]
  cases s.entering? (setting.withGuard false) with
  | none => exact hposition
  | some entering =>
    simp only [halike.leaving_eq]
    cases s.leaving? (setting.withGuard false) entering with
    | none => exact hposition
    | some leaving =>
      change t.moved entering leaving = s.moved entering leaving
      rw [moved, hposition, moved]

theorem position_after_congr (setting : Setting α) (hposition : t.position = s.position)
    (hrule : t.rule = s.rule) (k : ℕ) :
    (t.after (setting.withGuard false) k).position
      = (s.after (setting.withGuard false) k).position := by
  induction k with
  | zero => exact hposition
  | succ k ih =>
    rw [after_succ', after_succ']
    apply position_advance_congr setting ih
    rw [rule_after_withGuard_false, rule_after_withGuard_false, hrule]

end State

/-- A run without the guard that ends of itself is never in one position twice: as many pivots
further on it would be where it ends, but there it makes a pivot. -/
theorem Traces.position_ne {budget : ℕ} {run : Run α}
    (h : Traces (setting.withGuard false) budget s run)
    (hend : run.ending = .optimal ∨ ∃ column, run.ending = .unbounded column) {k l : ℕ}
    (hkl : k < l) (hl : l ≤ run.iterations) :
    (s.after (setting.withGuard false) k).position
      ≠ (s.after (setting.withGuard false) l).position := by
  intro heq
  have hrule : ∀ i j, (s.after (setting.withGuard false) i).rule
      = (s.after (setting.withGuard false) j).rule := by
    intro i j
    rw [State.rule_after_withGuard_false, State.rule_after_withGuard_false]
  have hlast := State.position_after_congr setting heq (hrule k l)
    (run.iterations - l)
  rw [← State.after_add, ← State.after_add, Nat.add_sub_cancel' hl] at hlast
  obtain ⟨entering, leaving, hm⟩ := h.exists_moves (k := k + (run.iterations - l)) (by omega)
  have halike := State.choosesAlike_withGuard setting hlast
    (hrule (k + (run.iterations - l)) run.iterations) false false
  have henters := halike.entering_eq.symm.trans hm.enters
  have hends := h.ends
  rcases hend with hopt | ⟨column, hunb⟩
  · rw [hopt] at hends
    exact absurd (henters.symm.trans hends) nofun
  · rw [hunb] at hends
    obtain rfl : column = entering := by
      simpa using hends.1.symm.trans henters
    have hleaves := (halike.leaving_eq column).symm.trans hm.leaves
    exact absurd (hleaves.symm.trans hends.2) nofun

end Unguarded

end Pivoting

namespace Position

variable {p : Position ℚ} {width : ℕ} {options : Options ℚ} {barred : List ℕ} {budget : ℕ}

/-- The states of a run from a canonical position restate its system. -/
theorem Canonical.restates_after (h : p.Canonical) (htol : 0 ≤ options.tolerance)
    (hw : p.tableau.HasWidth (width + 1)) (barred : List ℕ) (k : ℕ) :
    ((p.state options).after (options.setting barred) k).position.Restates p.tableau width :=
  Pivoting.State.restates_after (s := p.state options)
    (show 0 ≤ (options.setting barred).tolerance from htol) ⟨hw, h, Tableau.Agrees.refl _⟩ k

theorem Canonical.positions_eq (h : p.Canonical) (options : Options ℚ) (barred : List ℕ)
    (budget : ℕ) :
    p :: (p.run options barred budget).pivots.map (·.after)
      = (List.range ((p.run options barred budget).iterations + 1)).map
        fun k => ((p.state options).after (options.setting barred) k).position :=
  (p.traces h.length_eq.ge options barred budget).positions_eq

/-- So do the positions that a run passes. -/
theorem Canonical.restates_of_mem (h : p.Canonical) (hw : p.tableau.HasWidth (width + 1))
    (htol : 0 ≤ options.tolerance) {q : Position ℚ}
    (hq : q ∈ p :: (p.run options barred budget).pivots.map (·.after)) :
    q.Restates p.tableau width := by
  rw [h.positions_eq] at hq
  obtain ⟨k, -, rfl⟩ := List.mem_map.mp hq
  exact h.restates_after htol hw barred k

/-- A run without the guard that ends of itself meets no basis twice. -/
theorem Canonical.nodup_bases (h : p.Canonical) (hw : p.tableau.HasWidth (width + 1))
    (htol : 0 ≤ options.tolerance)
    (hend : (p.run (options.withGuard false) barred budget).ending = .optimal ∨
      ∃ column, (p.run (options.withGuard false) barred budget).ending = .unbounded column) :
    (p.basis :: (p.run (options.withGuard false) barred budget).bases).Nodup := by
  have htraces : Pivoting.Traces ((options.setting barred).withGuard false) budget
      (p.state options) (p.run (options.withGuard false) barred budget) :=
    p.traces h.length_eq.ge (options.withGuard false) barred budget
  have hrestates : ∀ k, ((p.state options).after ((options.setting barred).withGuard false)
      k).position.Restates p.tableau width :=
    fun k => h.restates_after (show 0 ≤ (options.withGuard false).tolerance from htol) hw barred k
  have hbases : p.basis :: (p.run (options.withGuard false) barred budget).bases
      = (p :: (p.run (options.withGuard false) barred budget).pivots.map (·.after)).map
        (·.basis) := by
    simp [Run.bases]
  rw [hbases, h.positions_eq, List.map_map]
  refine List.nodup_range.map_on fun k hk l hl heq => ?_
  have hsame := (hrestates k).eq_of_basis_eq (hrestates l) heq
  rw [List.mem_range, Nat.lt_succ_iff] at hk hl
  rcases lt_trichotomy k l with hlt | rfl | hgt
  · exact absurd hsame (htraces.position_ne hend hlt hl)
  · rfl
  · exact absurd hsame.symm (htraces.position_ne hend hgt hk)

end Position

/-- A basis determines its tableau, whatever the pivots that led to it. Of two positions of two runs
from one canonical position, those with the same list of basic columns have the same tableau, and
those with the same set of basic columns have the same one up to the order of the rows. -/
theorem tableau_determined {p : Position ℚ} {width : ℕ} (hw : p.tableau.HasWidth (width + 1))
    (h : p.Canonical) {options options' : Options ℚ} (htol : 0 ≤ options.tolerance)
    (htol' : 0 ≤ options'.tolerance) (barred barred' : List ℕ) (budget budget' : ℕ)
    {q q' : Position ℚ} (hq : q ∈ p :: (p.run options barred budget).pivots.map (·.after))
    (hq' : q' ∈ p :: (p.run options' barred' budget').pivots.map (·.after)) :
    (q.basis = q'.basis → q.tableau = q'.tableau) ∧
      ((∀ column, column ∈ q.basis ↔ column ∈ q'.basis) → q.SameUpToOrder q') := by
  have hrestates := h.restates_of_mem hw htol hq
  have hrestates' := h.restates_of_mem hw htol' hq'
  exact ⟨fun hbasis => congrArg Position.tableau (hrestates.eq_of_basis_eq hrestates' hbasis),
    hrestates.sameUpToOrder hrestates'⟩

/-- A position from which the two rules meet one basis in different orders. -/
def Position.twoWays : Position ℚ where
  tableau := ⟨[[1, -1, 1, 0, 0, 1], [0, 1, 0, 1, 0, 1], [1, 1, 0, 0, 1, 2]], [-1, -2, 0, 0, 0, 0]⟩
  basis := [2, 3, 4]

theorem Position.canonical_twoWays : Position.twoWays.Canonical := by
  decide +kernel

theorem Position.hasWidth_twoWays : Position.twoWays.tableau.HasWidth 6 := by
  simp [Position.twoWays, Tableau.HasWidth, Tableau.lines]

theorem tableau_determined_twoWays :
    (Position.twoWays.run { tolerance := 0, rule := .bland } [] 9).last.basis = [0, 2, 1] ∧
      (Position.twoWays.run { tolerance := 0 } [] 9).last.basis = [2, 1, 0] ∧
      (Position.twoWays.run { tolerance := 0, rule := .bland } [] 9).last.SameUpToOrder
        (Position.twoWays.run { tolerance := 0 } [] 9).last := by
  have hbland : (Position.twoWays.run { tolerance := 0, rule := .bland } [] 9).last.basis
      = [0, 2, 1] := by
    decide +kernel
  have hdantzig : (Position.twoWays.run { tolerance := 0 } [] 9).last.basis = [2, 1, 0] := by
    decide +kernel
  have hlast : (Position.twoWays.run { tolerance := 0, rule := .bland } [] 9).last
      ∈ Position.twoWays
        :: (Position.twoWays.run { tolerance := 0, rule := .bland } [] 9).pivots.map (·.after) := by
    decide +kernel
  have hlast' : (Position.twoWays.run { tolerance := 0 } [] 9).last
      ∈ Position.twoWays
        :: (Position.twoWays.run { tolerance := 0 } [] 9).pivots.map (·.after) := by
    decide +kernel
  refine ⟨hbland, hdantzig, (tableau_determined Position.hasWidth_twoWays
    Position.canonical_twoWays le_rfl le_rfl [] [] 9 9 hlast hlast').2 fun column => ?_⟩
  have hperm : [0, 2, 1].Perm [2, 1, 0] := by decide
  rw [hbland, hdantzig, hperm.mem_iff]

/-- The guard does not change a run from a canonical position that ends of itself without it. -/
theorem guarded_run_of_ends {p : Position ℚ} {width : ℕ} (hw : p.tableau.HasWidth (width + 1))
    (h : p.Canonical) {options : Options ℚ} (hrule : options.rule = .dantzig)
    (htol : 0 ≤ options.tolerance) (barred : List ℕ) (budget : ℕ)
    (hend : (p.run (options.withGuard false) barred budget).ending = .optimal ∨
      ∃ column, (p.run (options.withGuard false) barred budget).ending = .unbounded column) :
    p.run (options.withGuard true) barred budget
      = p.run (options.withGuard false) barred budget := by
  have hnodup := h.nodup_bases hw htol hend
  refine (p.watches_run hrule barred budget).eq_of_not_recurs fun place hrecurs => ?_
  exact not_recurs_of_nodup hnodup (place + 1) (recurs_cons_succ.mpr hrecurs)

theorem guarded_run_of_ends_twoWays :
    (Position.twoWays.run (({ tolerance := 0 } : Options ℚ).withGuard false) [] 9).iterations = 2 ∧
      Position.twoWays.run (({ tolerance := 0 } : Options ℚ).withGuard true) [] 9
        = Position.twoWays.run (({ tolerance := 0 } : Options ℚ).withGuard false) [] 9 :=
  ⟨by decide +kernel,
    guarded_run_of_ends Position.hasWidth_twoWays Position.canonical_twoWays rfl le_rfl [] 9
      (.inl (by decide +kernel))⟩

end SimplexMethod
