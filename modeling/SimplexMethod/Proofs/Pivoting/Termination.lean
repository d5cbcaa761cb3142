import Mathlib.Data.Fintype.CardEmbedding
import SimplexMethod.Proofs.Pivoting.Bland

/-!
# Runs end

Under Bland's rule no set of basic columns occurs twice, and there are only so many sets. While the
cycle guard watches the other rule no list of basic columns occurs twice, and there are only so
many lists; the first repetition switches to Bland's rule. So a run makes fewer pivots than there
are lists and sets together.
-/

namespace SimplexMethod

section Counting

theorem injOn_range_of_ne {β : Type} {f : ℕ → β} {n : ℕ}
    (h : ∀ i j, i < j → j ≤ n → f i ≠ f j) :
    Set.InjOn f (Finset.range (n + 1) : Set ℕ) := by
  intro i hi j hj heq
  have hi' := Finset.mem_range.mp hi
  have hj' := Finset.mem_range.mp hj
  rcases lt_trichotomy i j with hlt | rfl | hgt
  · exact absurd heq (h i j hlt (by omega))
  · rfl
  · exact absurd heq.symm (h j i hgt (by omega))

/-- Duplicate-free lists of a given length over the first numbers are no more than the injections
from positions to numbers. -/
theorem card_le_descFactorial {lists : Finset (List ℕ)} {width length : ℕ}
    (h : ∀ list ∈ lists, list.length = length ∧ list.Nodup ∧ ∀ column ∈ list, column < width) :
    lists.card ≤ width.descFactorial length := by
  have hlen : ∀ (list : lists) (i : Fin length), (i : ℕ) < list.1.length :=
    fun list i => (h _ list.2).1 ▸ i.isLt
  let entries : lists → (Fin length ↪ Fin width) := fun list =>
    { toFun := fun i =>
        ⟨list.1.get ⟨i, hlen list i⟩, (h _ list.2).2.2 _ (List.get_mem _ _)⟩
      inj' := by
        intro i j hij
        exact Fin.ext ((List.Nodup.getElem_inj_iff (h _ list.2).2.1).mp (Fin.mk.inj hij)) }
  have hinj : Function.Injective entries := by
    intro a b hab
    apply Subtype.ext
    apply List.ext_getElem ((h _ a.2).1.trans (h _ b.2).1.symm)
    intro i hi _
    have hfin : i < length := (h _ a.2).1 ▸ hi
    exact congrArg Fin.val (DFunLike.congr_fun hab ⟨i, hfin⟩)
  calc
    lists.card = Fintype.card lists := (Fintype.card_coe lists).symm
    _ ≤ Fintype.card (Fin length ↪ Fin width) := Fintype.card_le_of_injective entries hinj
    _ = width.descFactorial length := by
      rw [Fintype.card_embedding_eq, Fintype.card_fin, Fintype.card_fin]

/-- How many lists and how many sets of basic columns there are, together. -/
def pivotBound (width rows : ℕ) : ℕ :=
  width.descFactorial rows + width.choose rows

end Counting

namespace Pivoting

variable {s : State ℚ} {setting : Setting ℚ} {width : ℕ}

/-- A run under Bland's rule has different sets of basic columns all along. -/
theorem State.toFinset_basis_ne (htol : setting.tolerance = 0) (hrule : s.rule = .bland)
    (hr : s.position.Ready width setting.barred) {n : ℕ}
    (hm : ∀ k < n, ∃ entering leaving, (s.after setting k).Moves setting entering leaving)
    {i j : ℕ} (hij : i < j) (hj : j ≤ n) :
    (s.after setting i).position.basis.toFinset ≠ (s.after setting j).position.basis.toFinset := by
  intro heq
  have hsplit : ∀ k, (s.after setting i).after setting k = s.after setting (i + k) :=
    fun k => (State.after_add s setting i k).symm
  have hcycle : Cycle setting (s.after setting i) width (j - i) := by
    refine ⟨htol, State.rule_after_of_bland hrule setting i, State.ready_after htol hr i,
      Nat.sub_pos_of_lt hij, ?_, ?_⟩
    · intro k hk
      rw [hsplit]
      exact hm (i + k) (by omega)
    · intro column
      rw [hsplit, Nat.add_sub_cancel' hij.le]
      simpa using Finset.ext_iff.mp heq column
  exact hcycle.false

/-- A run under Bland's rule makes fewer pivots than there are sets of basic columns. -/
theorem State.lt_choose (htol : setting.tolerance = 0) (hrule : s.rule = .bland)
    (hr : s.position.Ready width setting.barred) {n : ℕ}
    (hm : ∀ k < n, ∃ entering leaving, (s.after setting k).Moves setting entering leaving) :
    n < width.choose s.position.basis.length := by
  have hcard : (Finset.range (n + 1)).card
      ≤ ((Finset.range width).powersetCard s.position.basis.length).card := by
    apply Finset.card_le_card_of_injOn fun k => (s.after setting k).position.basis.toFinset
    · intro k _
      have hready := State.ready_after htol hr k
      apply Finset.mem_powersetCard.mpr
      constructor
      · intro column hc
        exact Finset.mem_range.mpr
          (hready.canonical.lt_of_mem hready.hasWidth (List.mem_toFinset.mp hc))
      · rw [List.toFinset_card_of_nodup hready.canonical.nodup]
        exact State.length_basis_after s setting k
    · exact injOn_range_of_ne fun _ _ => State.toFinset_basis_ne htol hrule hr hm
  exact Nat.lt_of_succ_le (by simpa using hcard)

section Guarded

/-- Every basis met so far is among the bases seen. -/
theorem State.basis_mem_seen_after (hseen : s.position.basis ∈ s.seen)
    (setting : Setting ℚ) {i k : ℕ} (hik : i ≤ k) :
    (s.after setting i).position.basis ∈ (s.after setting k).seen := by
  have hown : (s.after setting i).position.basis ∈ (s.after setting i).seen := by
    refine State.after_induction (fun t => t.position.basis ∈ t.seen) hseen ?_ i
    intro t entering leaving _ _
    exact List.mem_cons_self
  have hkept : (s.after setting i).position.basis
      ∈ ((s.after setting i).after setting (k - i)).seen :=
    State.after_induction (fun t => (s.after setting i).position.basis ∈ t.seen) hown
      (fun _ _ _ hmem _ => List.mem_cons_of_mem _ hmem) (k - i)
  rwa [← State.after_add, Nat.add_sub_cancel' hik] at hkept

/-- As long as the watched rule is in force no list of basic columns has occurred twice: one seen
before would have switched the rule. -/
theorem State.basis_ne_of_dantzig (hguard : setting.cycleGuard = true)
    (hseen : s.position.basis ∈ s.seen) {n : ℕ}
    (hm : ∀ k < n, ∃ entering leaving, (s.after setting k).Moves setting entering leaving)
    (hrule : (s.after setting n).rule = .dantzig) {i j : ℕ} (hij : i < j) (hj : j ≤ n) :
    (s.after setting i).position.basis ≠ (s.after setting j).position.basis := by
  have hdantzig : ∀ k ≤ n, (s.after setting k).rule = .dantzig := by
    intro k hk
    cases hbefore : (s.after setting k).rule with
    | dantzig => rfl
    | bland =>
      have hlater := State.rule_after_of_bland hbefore setting (n - k)
      rw [← State.after_add, Nat.add_sub_cancel' hk, hrule] at hlater
      exact absurd hlater (by decide)
  cases j with
  | zero => exact absurd hij (Nat.not_lt_zero i)
  | succ j =>
    intro heq
    obtain ⟨entering, leaving, hmoves⟩ := hm j hj
    have hmem := State.basis_mem_seen_after hseen setting (Nat.le_of_lt_succ hij)
    have hnext := hdantzig (j + 1) hj
    rw [heq, State.after_succ', hmoves.basis_after] at hmem
    rw [State.after_succ', State.advance_of_moves hmoves] at hnext
    simp [State.next, State.record, State.switches, State.moved, hguard,
      hdantzig j (Nat.le_of_succ_le hj), hmem] at hnext

theorem State.lt_descFactorial (htol : setting.tolerance = 0) (hguard : setting.cycleGuard = true)
    (hseen : s.position.basis ∈ s.seen) (hr : s.position.Ready width setting.barred) {n : ℕ}
    (hm : ∀ k < n, ∃ entering leaving, (s.after setting k).Moves setting entering leaving)
    (hrule : (s.after setting n).rule = .dantzig) :
    n < width.descFactorial s.position.basis.length := by
  let bases := (Finset.range (n + 1)).image fun k => (s.after setting k).position.basis
  have hcard : bases.card = n + 1 := by
    rw [Finset.card_image_of_injOn, Finset.card_range]
    exact injOn_range_of_ne fun _ _ => State.basis_ne_of_dantzig hguard hseen hm hrule
  have hle : bases.card ≤ width.descFactorial s.position.basis.length := by
    apply card_le_descFactorial
    intro list hlist
    obtain ⟨k, -, rfl⟩ := Finset.mem_image.mp hlist
    have hready := State.ready_after htol hr k
    exact ⟨State.length_basis_after s setting k, hready.canonical.nodup,
      fun column hc => hready.canonical.lt_of_mem hready.hasWidth hc⟩
  omega

/-- A run that is under Bland's rule or watched by the cycle guard makes fewer pivots than there
are lists and sets of basic columns together: the pivot that switches the rule splits the run into a
watched part and one under Bland's rule. -/
theorem State.lt_pivotBound (htol : setting.tolerance = 0)
    (hrule : s.rule = .bland ∨ setting.cycleGuard = true) (hseen : s.position.basis ∈ s.seen)
    (hr : s.position.Ready width setting.barred) {n : ℕ}
    (hm : ∀ k < n, ∃ entering leaving, (s.after setting k).Moves setting entering leaving) :
    n < pivotBound width s.position.basis.length := by
  rw [pivotBound]
  cases hstart : s.rule with
  | bland => exact Nat.lt_add_left _ (State.lt_choose htol hstart hr hm)
  | dantzig =>
    have hguard := hrule.resolve_left (by simp [hstart])
    cases hend : (s.after setting n).rule with
    | dantzig => exact Nat.lt_add_right _ (State.lt_descFactorial htol hguard hseen hr hm hend)
    | bland =>
      obtain ⟨k, -, hk, hbefore, hafter⟩ :=
        exists_step (fun k => (s.after setting k).rule = .bland) (Nat.zero_le n)
          (by simp [hstart]) hend
      have hwatched : (s.after setting k).rule = .dantzig := by
        cases hcase : (s.after setting k).rule with
        | dantzig => rfl
        | bland => exact absurd hcase hbefore
      have hfirst := State.lt_descFactorial htol hguard hseen hr
        (fun i hi => hm i (hi.trans hk)) hwatched
      have hsecond := State.lt_choose htol hafter (State.ready_after htol hr (k + 1))
        (n := n - (k + 1)) (by
          intro i hi
          rw [← State.after_add]
          exact hm (k + 1 + i) (by omega))
      rw [State.length_basis_after] at hsecond
      omega

end Guarded

end Pivoting

namespace Position.Ready

variable {p : Position ℚ} {width : ℕ} {barred : List ℕ} {options : Options ℚ}
  (h : p.Ready width barred) (htol : options.tolerance = 0)

include h

/-- There are no more rows than columns. -/
theorem length_rows_le : p.tableau.rows.length ≤ width := by
  rw [← h.canonical.length_eq, ← List.toFinset_card_of_nodup h.canonical.nodup,
    ← Finset.card_range width]
  apply Finset.card_le_card
  intro column hc
  exact Finset.mem_range.mpr (h.canonical.lt_of_mem h.hasWidth (List.mem_toFinset.mp hc))

include htol

/-- Under Bland's rule the bases of a run are different as sets. -/
theorem nodup_toFinset_basis (hrule : options.rule = .bland) (budget : ℕ) :
    ((p :: (p.run options barred budget).pivots.map (·.after)).map
      (·.basis.toFinset)).Nodup := by
  have htraces := p.traces h.canonical.length_eq.ge options barred budget
  have hpositions : p :: (p.run options barred budget).pivots.map (·.after) = _ :=
    htraces.positions_eq
  rw [hpositions, List.map_map]
  apply List.Nodup.map_on _ List.nodup_range
  intro i hi j hj heq
  refine injOn_range_of_ne (f := fun k =>
    ((p.state options).after (options.setting barred) k).position.basis.toFinset)
    (fun i j hij hj => Pivoting.State.toFinset_basis_ne htol hrule h
      (fun k hk => htraces.exists_moves hk) hij hj) ?_ ?_ heq
  · simpa using hi
  · simpa using hj

variable (hrule : options.rule = .bland ∨ options.cycleGuard = true) (budget : ℕ)

include hrule

/-- A run makes fewer pivots than there are lists and sets of basic columns together. -/
theorem iterations_lt :
    (p.run options barred budget).iterations < pivotBound width p.tableau.rows.length := by
  have htraces := p.traces h.canonical.length_eq.ge options barred budget
  rw [← h.canonical.length_eq]
  exact Pivoting.State.lt_pivotBound (s := p.state options)
    (show (options.setting barred).tolerance = 0 from htol) hrule List.mem_cons_self h
    fun k hk => htraces.exists_moves hk

/-- A run with a large enough budget ends by itself. -/
theorem ending_of_le_budget (hle : pivotBound width p.tableau.rows.length ≤ budget) :
    (p.run options barred budget).ending = .optimal ∨
      ∃ column, (p.run options barred budget).ending = .unbounded column :=
  (p.traces h.canonical.length_eq.ge options barred budget).ending_eq
    ((h.iterations_lt htol hrule budget).trans_le hle)

end Position.Ready

end SimplexMethod
