import Mathlib.Data.Nat.Find
import SimplexMethod.Proofs.Pivoting.Budget
import SimplexMethod.Proofs.Pivoting.Lockstep
import SimplexMethod.Proofs.Pivoting.Snapshots

/-!
# The cycle guard

The guard does nothing until a basis occurs for a second time. From there on the run is the one
under Bland's rule with the budget that is left, and later repetitions do not matter. So a watched
run is an unwatched one if no basis recurs, and otherwise an unwatched one up to the first
recurrence, continued under Bland's rule. Nothing here depends on the arithmetic, and a run that
breaks off for want of a basic column is no exception.
-/

namespace SimplexMethod

section Recurrence

variable {β : Type} {seen items : List β} {item : β} {place : Nat}

/-- The item at the place is among those seen or among the items before it. -/
def Recurs (seen items : List β) (place : Nat) : Prop :=
  ∃ item ∈ items[place]?, item ∈ seen ∨ item ∈ items.take place

instance [DecidableEq β] : Decidable (Recurs seen items place) :=
  inferInstanceAs (Decidable (∃ item ∈ items[place]?, item ∈ seen ∨ item ∈ items.take place))

/-- The first place whose item recurs. -/
structure FirstRecurs (seen items : List β) (place : Nat) : Prop where
  recurs : Recurs seen items place
  fresh : ∀ earlier < place, ¬ Recurs seen items earlier

theorem firstRecurs_iff : FirstRecurs seen items place ↔
    Recurs seen items place ∧ ∀ earlier < place, ¬ Recurs seen items earlier :=
  ⟨fun h => ⟨h.recurs, h.fresh⟩, fun h => ⟨h.1, h.2⟩⟩

instance [DecidableEq β] : Decidable (FirstRecurs seen items place) :=
  decidable_of_iff _ firstRecurs_iff.symm

/-- If an item recurs, one recurs first. -/
theorem Recurs.exists_first (h : Recurs seen items place) :
    ∃ first, FirstRecurs seen items first := by
  classical
  exact ⟨Nat.find ⟨place, h⟩, Nat.find_spec ⟨place, h⟩, fun _ => Nat.find_min ⟨place, h⟩⟩

theorem recurs_cons_zero : Recurs seen (item :: items) 0 ↔ item ∈ seen := by
  simp [Recurs]

theorem recurs_cons_succ :
    Recurs seen (item :: items) (place + 1) ↔ Recurs (item :: seen) items place := by
  simp only [Recurs, List.getElem?_cons_succ, List.take_succ_cons, List.mem_cons]
  constructor
  · rintro ⟨found, hfound, hold | hitem | hbefore⟩
    · exact ⟨found, hfound, .inl (.inr hold)⟩
    · exact ⟨found, hfound, .inl (.inl hitem)⟩
    · exact ⟨found, hfound, .inr hbefore⟩
  · rintro ⟨found, hfound, (hitem | hold) | hbefore⟩
    · exact ⟨found, hfound, .inr (.inl hitem)⟩
    · exact ⟨found, hfound, .inl hold⟩
    · exact ⟨found, hfound, .inr (.inr hbefore)⟩

theorem FirstRecurs.of_cons (h : FirstRecurs seen (item :: items) (place + 1)) :
    FirstRecurs (item :: seen) items place where
  recurs := recurs_cons_succ.mp h.recurs
  fresh := fun earlier hlt hrecurs =>
    h.fresh (earlier + 1) (Nat.succ_lt_succ hlt) (recurs_cons_succ.mpr hrecurs)

theorem not_firstRecurs_nil : ¬ FirstRecurs seen [] place := by
  intro h
  obtain ⟨item, hitem, -⟩ := h.recurs
  exact absurd hitem nofun

theorem firstRecurs_cons_zero : FirstRecurs seen (item :: items) 0 ↔ item ∈ seen := by
  rw [firstRecurs_iff, recurs_cons_zero]
  simp

theorem firstRecurs_cons_succ :
    FirstRecurs seen (item :: items) (place + 1) ↔
      item ∉ seen ∧ FirstRecurs (item :: seen) items place := by
  constructor
  · intro h
    exact ⟨fun hold => h.fresh 0 (Nat.succ_pos place) (recurs_cons_zero.mpr hold), h.of_cons⟩
  · rintro ⟨hnew, h⟩
    refine ⟨recurs_cons_succ.mpr h.recurs, ?_⟩
    intro earlier hlt
    cases earlier with
    | zero => exact mt recurs_cons_zero.mp hnew
    | succ earlier => exact mt recurs_cons_succ.mp (h.fresh earlier (Nat.lt_of_succ_lt_succ hlt))

end Recurrence

variable {α : Type}

namespace Run

/-- The bases after the pivots of a run. -/
def bases (run : Run α) : List (List Nat) :=
  run.pivots.map fun pivot => pivot.after.basis

theorem map_basis_snapshots (run : Run α) (phase : Int) (earlier : Nat) :
    (run.snapshots phase earlier).map (fun snapshot => snapshot.position.basis) = run.bases := by
  apply List.ext_getElem
  · simp [snapshots, bases]
  · intro i _ _
    simp [snapshots, bases]

theorem getElem?_snapshots {run : Run α} {place : Nat} {pivot : Pivot α}
    (h : run.pivots[place]? = some pivot) (phase : Int) (earlier : Nat) :
    (run.snapshots phase earlier)[place]?
      = some ⟨phase, earlier + place + 1, pivot.entering, pivot.leaving, pivot.after⟩ := by
  simp [snapshots, h]

/-- The run makes the first pivots of one run, as many as given, and goes on as another one. -/
structure Splices (count : Nat) (first second run : Run α) : Prop where
  snapshots_eq : ∀ phase earlier, run.snapshots phase earlier
    = (first.snapshots phase earlier).take count ++ second.snapshots phase (earlier + count)
  iterations_eq : run.iterations = count + second.iterations
  ending_eq : run.ending = second.ending
  last_eq : run.last = second.last

namespace Splices

variable {count : Nat} {first second run : Run α}

theorem zero (first second : Run α) : Splices 0 first second second where
  snapshots_eq := fun _ _ => rfl
  iterations_eq := (Nat.zero_add _).symm
  ending_eq := rfl
  last_eq := rfl

/-- One pivot before both runs; whether it switches the rule is not recorded in a snapshot. -/
theorem cons (h : Splices count first second run) (pivot : Pivot α) (switched : Bool) :
    Splices (count + 1) { first with pivots := pivot :: first.pivots } second
      { run with pivots := { pivot with switched } :: run.pivots } where
  snapshots_eq := by
    intro phase earlier
    rw [snapshots_cons, snapshots_cons, h.snapshots_eq, List.take_succ_cons, List.cons_append,
      Nat.add_assoc, Nat.add_comm 1]
  iterations_eq := by
    change run.iterations + 1 = _
    rw [h.iterations_eq, Nat.add_right_comm]
  ending_eq := h.ending_eq
  last_eq := h.last_eq

end Splices

/-- How a run compares with the one that the guard watches: they part at the first basis that was
seen before, after which the watched run is `resume`d with the budget that is left. -/
inductive Watches (resume : Nat → Position α → Run α) :
    Nat → List (List Nat) → Run α → Run α → Prop where
  | ended {budget : Nat} {seen : List (List Nat)} (ending : Ending) (last : Position α) :
      Watches resume budget seen ⟨[], ending, last⟩ ⟨[], ending, last⟩
  | fresh {budget : Nat} {seen : List (List Nat)} {pivot : Pivot α} {free watched : Run α}
      (hnew : pivot.after.basis ∉ seen)
      (later : Watches resume budget (pivot.after.basis :: seen) free watched) :
      Watches resume (budget + 1) seen { free with pivots := pivot :: free.pivots }
        { watched with pivots := pivot :: watched.pivots }
  | repeated {budget : Nat} {seen : List (List Nat)} {pivot : Pivot α} {free : Run α}
      (hold : pivot.after.basis ∈ seen) :
      Watches resume (budget + 1) seen { free with pivots := pivot :: free.pivots }
        { resume budget pivot.after with
          pivots := { pivot with switched := true } :: (resume budget pivot.after).pivots }

namespace Watches

variable {resume : Nat → Position α → Run α} {budget : Nat} {seen : List (List Nat)}
  {free watched : Run α}

/-- Where no basis recurs, the guard changes nothing. -/
theorem eq_of_not_recurs (h : Watches resume budget seen free watched)
    (hnone : ∀ place, ¬ Recurs seen free.bases place) : watched = free := by
  induction h with
  | ended => rfl
  | fresh _ _ ih => rw [ih fun place hrecurs => hnone (place + 1) (recurs_cons_succ.mpr hrecurs)]
  | repeated hold => exact absurd (recurs_cons_zero.mpr hold) (hnone 0)

/-- The guard splices the runs after the pivot to the first basis that recurs. -/
theorem splices_of_firstRecurs (h : Watches resume budget seen free watched) {place : Nat}
    (hfirst : FirstRecurs seen free.bases place) :
    ∃ pivot, free.pivots[place]? = some pivot ∧ place < budget ∧
      Splices (place + 1) free (resume (budget - (place + 1)) pivot.after) watched := by
  induction h generalizing place with
  | ended =>
    obtain ⟨basis, hbasis, -⟩ := hfirst.recurs
    exact absurd hbasis nofun
  | @fresh budget seen pivot free watched hnew _ ih =>
    cases place with
    | zero => exact absurd (recurs_cons_zero.mp hfirst.recurs) hnew
    | succ place =>
      obtain ⟨last, hlast, hlt, hsplices⟩ := ih hfirst.of_cons
      refine ⟨last, hlast, Nat.succ_lt_succ hlt, ?_⟩
      rw [Nat.add_sub_add_right]
      exact hsplices.cons pivot pivot.switched
  | @repeated budget seen pivot free hold =>
    cases place with
    | zero => exact ⟨pivot, rfl, Nat.succ_pos budget, (Splices.zero _ _).cons pivot true⟩
    | succ place => exact absurd (recurs_cons_zero.mpr hold) (hfirst.fresh 0 (Nat.succ_pos place))

end Watches

end Run

namespace Pivoting

/-- The setting with the guard on or off. -/
def Setting.withGuard (setting : Setting α) (guard : Bool) : Setting α :=
  { setting with cycleGuard := guard }

variable {setting : Setting α}

section Guards

variable {s t : State α} {guard guard' : Bool}

theorem State.switches_eq_false (setting : Setting α) (h : guard = false ∨ s.rule = .bland)
    (after : Position α) :
    s.switches (setting.withGuard guard) after = false := by
  rcases h with rfl | hrule
  · rfl
  · simp [switches, hrule]

theorem State.switches_withGuard_true (setting : Setting α) (hrule : s.rule = .dantzig)
    (after : Position α) :
    s.switches (setting.withGuard true) after = decide (after.basis ∈ s.seen) := by
  simp [switches, hrule, Setting.withGuard]

variable [Scalar α]

/-- What is chosen depends neither on the guard nor on the bases met so far. -/
theorem State.choosesAlike_withGuard (setting : Setting α) (hposition : t.position = s.position)
    (hrule : t.rule = s.rule) (guard guard' : Bool) :
    s.ChoosesAlike t (setting.withGuard guard) (setting.withGuard guard') := by
  obtain ⟨position, rule, seen⟩ := s
  obtain ⟨_, _, seen'⟩ := t
  subst hposition hrule
  exact ⟨rfl, fun _ => rfl, fun _ _ => rfl⟩

/-- Without the guard, or under Bland's rule, the bases met so far do not matter. -/
theorem run_unwatched (setting : Setting α) (hposition : t.position = s.position)
    (hrule : t.rule = s.rule) (hs : guard = false ∨ s.rule = .bland)
    (ht : guard' = false ∨ s.rule = .bland) (budget : Nat) :
    run (setting.withGuard guard') budget t = run (setting.withGuard guard) budget s := by
  refine run_pair_induction
    (fun u v => v.position = u.position ∧ u.rule = s.rule ∧ v.rule = s.rule)
    (motive := fun _ _ _ run other => other = run) ?_ ?_ ?_ budget ⟨hposition, rfl, hrule⟩
  · rintro u v ⟨hposition, hu, hv⟩
    exact State.choosesAlike_withGuard setting hposition (hv.trans hu.symm) _ _
  · rintro _ u v ending ⟨hposition, -, -⟩
    rw [hposition]
  · rintro budget u v entering leaving ⟨hposition, hu, hv⟩ - ih
    have hu' := State.switches_eq_false setting (hu.symm ▸ hs)
      (u.moved entering leaving)
    have hv' := State.switches_eq_false setting (hv.symm ▸ ht)
      (v.moved entering leaving)
    have hmoved : v.moved entering leaving = u.moved entering leaving := by
      rw [State.moved, hposition, State.moved]
    have hrecord : v.record (setting.withGuard guard') entering leaving
        = u.record (setting.withGuard guard) entering leaving := by
      rw [State.record, State.record, hu', hv', hmoved, hposition]
    rw [hrecord, ih (u.next _) (v.next _) ⟨rfl, ?_, ?_⟩]
    · simpa [State.next, State.record, hu'] using hu
    · simpa [State.next, State.record, hu'] using hv

/-- The guard watches a run that starts under the other rule. Once it has switched, the bases met so
far may be forgotten. -/
theorem watches_run (hrule : s.rule = .dantzig) (budget : Nat) :
    Run.Watches
      (fun budget position => run (setting.withGuard true) budget ⟨position, .bland, []⟩)
      budget s.seen (run (setting.withGuard false) budget s)
      (run (setting.withGuard true) budget s) := by
  refine run_pair_induction (fun u v => v = u ∧ u.rule = .dantzig)
    (motive := fun budget u _ free watched => Run.Watches
      (fun budget position => run (setting.withGuard true) budget ⟨position, .bland, []⟩)
      budget u.seen free watched) ?_ ?_ ?_ budget ⟨rfl, hrule⟩
  · rintro u v ⟨rfl, -⟩
    exact State.choosesAlike_withGuard setting rfl rfl _ _
  · rintro _ u v ending ⟨rfl, -⟩
    exact .ended ending v.position
  · rintro budget u v entering leaving ⟨rfl, hrule⟩ - ih
    have hfree : v.switches (setting.withGuard false) (v.moved entering leaving) = false :=
      State.switches_eq_false setting (.inl rfl) _
    have hwatched := State.switches_withGuard_true setting hrule
      (v.moved entering leaving)
    by_cases hmem : (v.moved entering leaving).basis ∈ v.seen
    · rw [decide_eq_true hmem] at hwatched
      have hresumed : run (setting.withGuard true) budget
          (v.next (v.record (setting.withGuard true) entering leaving))
          = run (setting.withGuard true) budget ⟨v.moved entering leaving, .bland, []⟩ := by
        refine run_unwatched setting ?_ ?_ (.inr rfl) (.inr rfl) budget
        · rfl
        · simp [State.next, State.record, hwatched]
      have hrecord : v.record (setting.withGuard true) entering leaving
          = { v.record (setting.withGuard false) entering leaving with switched := true } := by
        rw [State.record, State.record, hwatched]
      rw [hresumed, hrecord]
      exact .repeated hmem
    · rw [decide_eq_false hmem] at hwatched
      have hrecord : v.record (setting.withGuard true) entering leaving
          = v.record (setting.withGuard false) entering leaving := by
        rw [State.record, State.record, hwatched, hfree]
      rw [hrecord]
      refine .fresh hmem (ih (v.next (v.record _ entering leaving)) _ ⟨rfl, ?_⟩)
      simpa [State.next, State.record, hfree] using hrule

end Guards

end Pivoting

/-- The options with the guard on or off. -/
def Options.withGuard [Scalar α] (options : Options α) (guard : Bool) : Options α :=
  { options with cycleGuard := guard }

/-- The options with another rule. -/
def Options.withRule [Scalar α] (options : Options α) (rule : PivotRule) : Options α :=
  { options with rule }

namespace Position

variable [Scalar α] {p : Position α} {options : Options α}

/-- The bases along a run, that of its start included. -/
def basesAlong (p : Position α) (snapshots : List (Snapshot α)) : List (List Nat) :=
  p.basis :: snapshots.map fun snapshot => snapshot.position.basis

/-- The run with the guard on watches the one with the guard off. -/
theorem watches_run (p : Position α) (hrule : options.rule = .dantzig) (barred : List Nat)
    (budget : Nat) :
    Run.Watches
      (fun budget position =>
        Pivoting.run ((options.setting barred).withGuard true) budget ⟨position, .bland, []⟩)
      budget [p.basis] (p.run (options.withGuard false) barred budget)
      (p.run (options.withGuard true) barred budget) :=
  Pivoting.watches_run (s := p.state options) hrule budget

/-- Under Bland's rule neither the guard nor the bases met so far matter. -/
theorem run_withRule_bland (p : Position α) (options : Options α) (guard : Bool)
    (barred : List Nat) (budget : Nat) :
    p.run ((options.withRule .bland).withGuard guard) barred budget
      = Pivoting.run ((options.setting barred).withGuard true) budget ⟨p, .bland, []⟩ :=
  Pivoting.run_unwatched (options.setting barred) (s := ⟨p, .bland, []⟩)
    (t := p.state (options.withRule .bland)) rfl rfl (.inr rfl) (.inr rfl) budget

end Position

/-- The cycle guard switches the rule once, at the first basis that recurs, and does nothing else.
With the guard on a run is the run without it if no basis recurs there. Otherwise it makes the
pivots up to the first basis that recurs and goes on from there as a run under Bland's rule. -/
theorem guarded_run [Scalar α] (p : Position α) (options : Options α)
    (hrule : options.rule = .dantzig) (barred : List Nat) (budget : Nat) (phase : Int)
    (earlier : Nat) :
    ((¬ ∃ count, FirstRecurs []
          (p.basesAlong ((p.run (options.withGuard false) barred budget).snapshots phase earlier))
          count) →
        p.run (options.withGuard true) barred budget
          = p.run (options.withGuard false) barred budget) ∧
      ∀ count, FirstRecurs []
          (p.basesAlong ((p.run (options.withGuard false) barred budget).snapshots phase earlier))
          count →
        ∃ snapshot,
          ((p.run (options.withGuard false) barred budget).snapshots phase earlier)[count - 1]?
              = some snapshot ∧
            0 < count ∧ count ≤ budget ∧
            ∀ guard, Run.Splices count (p.run (options.withGuard false) barred budget)
              (snapshot.position.run ((options.withRule .bland).withGuard guard) barred
                (budget - count))
              (p.run (options.withGuard true) barred budget) := by
  have hwatches := p.watches_run hrule barred budget
  simp only [Position.basesAlong, Run.map_basis_snapshots]
  constructor
  · intro hnone
    refine hwatches.eq_of_not_recurs fun place hrecurs => ?_
    exact hnone (recurs_cons_succ.mpr hrecurs).exists_first
  · intro count hfirst
    cases count with
    | zero => exact absurd (recurs_cons_zero.mp hfirst.recurs) List.not_mem_nil
    | succ place =>
      obtain ⟨pivot, hpivot, hlt, hsplices⟩ := hwatches.splices_of_firstRecurs hfirst.of_cons
      refine ⟨_, Run.getElem?_snapshots hpivot phase earlier, Nat.succ_pos place, hlt,
        fun guard => ?_⟩
      rw [Position.run_withRule_bland]
      exact hsplices

/-- A position from which the steepest cost, with ties broken by row number, cycles. -/
def Position.cycling : Position Rat where
  tableau := ⟨[[1/2, -11/2, -5/2, 9, 1, 0, 0], [1/2, -3/2, -1/2, 1, 0, 1, 0]],
    [-10, 57, 9, 24, 0, 0, 0]⟩
  basis := [4, 5]

/-- Its sixth pivot leads back to it, and the last three of nine are made under Bland's rule. -/
theorem guarded_run_cycling :
    ∃ snapshot : Snapshot Rat, snapshot.position = Position.cycling ∧
      ∀ guard, Run.Splices 6
        (Position.cycling.run (({ tolerance := 0 } : Options Rat).withGuard false) [] 9)
        (snapshot.position.run
          ((({ tolerance := 0 } : Options Rat).withRule .bland).withGuard guard) [] 3)
        (Position.cycling.run (({ tolerance := 0 } : Options Rat).withGuard true) [] 9) := by
  have hfirst : FirstRecurs [] (Position.cycling.basesAlong
      ((Position.cycling.run (({ tolerance := 0 } : Options Rat).withGuard false) [] 9).snapshots
        2 0)) 6 := by
    decide +kernel
  obtain ⟨snapshot, hsnapshot, -, -, hsplices⟩ :=
    (guarded_run Position.cycling { tolerance := 0 } rfl [] 9 2 0).2 6 hfirst
  refine ⟨snapshot, ?_, hsplices⟩
  have hposition : ((Position.cycling.run (({ tolerance := 0 } : Options Rat).withGuard false) []
      9).snapshots 2 0)[5]?.map Snapshot.position = some Position.cycling := by
    decide +kernel
  rw [hsnapshot] at hposition
  simpa using hposition

end SimplexMethod
