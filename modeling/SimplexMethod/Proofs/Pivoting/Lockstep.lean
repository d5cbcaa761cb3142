import SimplexMethod.Pivoting.Run

/-!
# Runs in lockstep

Two states choose alike if the same column enters in both, the same row leaves for it, and neither
choice breaks off unless the other one does. Two runs under one budget that start in states that
choose alike end alike or make a pivot of the same column and the same row. Nothing here depends on
the arithmetic.
-/

namespace SimplexMethod

namespace Pivoting

variable {α : Type} [Scalar α]

/-- Both states choose the same pivot, each under its own setting. -/
structure State.ChoosesAlike (s t : State α) (one other : Setting α) : Prop where
  entering_eq : t.entering? other = s.entering? one
  leaving_eq : ∀ entering, t.leaving? other entering = s.leaving? one entering
  lacksColumn_eq : ∀ entering leaving,
    t.lacksColumn other entering leaving = s.lacksColumn one entering leaving

/-- Follow two runs from states that choose alike. After a pivot the claim may be used for whichever
states are related. -/
theorem run_pair_induction {one other : Setting α} (related : State α → State α → Prop)
    {motive : Nat → State α → State α → Run α → Run α → Prop}
    (alike : ∀ s t, related s t → s.ChoosesAlike t one other)
    (nil : ∀ budget s t ending, related s t →
      motive budget s t ⟨[], ending, s.position⟩ ⟨[], ending, t.position⟩)
    (cons : ∀ budget s t entering leaving, related s t →
      s.leaving? one entering = some leaving →
      (∀ s' t', related s' t' → motive budget s' t' (run one budget s') (run other budget t')) →
      motive (budget + 1) s t
        { run one budget (s.next (s.record one entering leaving)) with
          pivots := s.record one entering leaving
            :: (run one budget (s.next (s.record one entering leaving))).pivots }
        { run other budget (t.next (t.record other entering leaving)) with
          pivots := t.record other entering leaving
            :: (run other budget (t.next (t.record other entering leaving))).pivots })
    (budget : Nat) {s t : State α} (h : related s t) :
    motive budget s t (run one budget s) (run other budget t) := by
  induction budget generalizing s t with
  | zero =>
    have halike := alike s t h
    cases he : s.entering? one with
    | none =>
      rw [run_of_entering_none he, run_of_entering_none (halike.entering_eq.trans he)]
      exact nil _ s t .optimal h
    | some entering =>
      rw [run_zero he, run_zero (halike.entering_eq.trans he)]
      exact nil _ s t .stopped h
  | succ budget ih =>
    have halike := alike s t h
    cases he : s.entering? one with
    | none =>
      rw [run_of_entering_none he, run_of_entering_none (halike.entering_eq.trans he)]
      exact nil _ s t .optimal h
    | some entering =>
      have he' := halike.entering_eq.trans he
      cases hl : s.leaving? one entering with
      | none =>
        rw [run_of_leaving_none he hl, run_of_leaving_none he' ((halike.leaving_eq _).trans hl)]
        exact nil _ s t (.unbounded entering) h
      | some leaving =>
        have hl' := (halike.leaving_eq entering).trans hl
        cases hc : s.lacksColumn one entering leaving with
        | true =>
          rw [run_of_lacksColumn he hl hc,
            run_of_lacksColumn he' hl' ((halike.lacksColumn_eq _ _).trans hc)]
          exact nil _ s t .noBasicColumn h
        | false =>
          rw [run_succ he hl hc, run_succ he' hl' ((halike.lacksColumn_eq _ _).trans hc)]
          exact cons budget s t entering leaving h hl fun s' t' => ih

end Pivoting

end SimplexMethod
