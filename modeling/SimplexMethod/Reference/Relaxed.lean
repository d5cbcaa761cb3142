import SimplexMethod.Scalar

/-!
# Relaxed numbers

A relaxed number is a number that may be off, beside one that may not. Everything is computed on
both, and every comparison looks at the loose one. So a method that is given relaxed bounds decides
as the loose bounds say, and the position in which it ends shows what the tight bounds give there.
-/

namespace SimplexMethod

/-- A number to compare by, and a number to report. -/
structure Relaxed where
  loose : Rat
  tight : Rat

namespace Relaxed

/-- A number that is not relaxed. -/
def exact (q : Rat) : Relaxed :=
  ⟨q, q⟩

/-- Compute on both numbers. -/
def lift (f : Rat → Rat → Rat) (a b : Relaxed) : Relaxed :=
  ⟨f a.loose b.loose, f a.tight b.tight⟩

end Relaxed

instance : Scalar Relaxed where
  toZero := ⟨.exact 0⟩
  toOne := ⟨.exact 1⟩
  neg a := ⟨-a.loose, -a.tight⟩
  add := .lift (· + ·)
  sub := .lift (· - ·)
  mul := .lift (· * ·)
  div := .lift (· / ·)
  lt a b := a.loose < b.loose
  le a b := a.loose ≤ b.loose
  beq a b := a.loose == b.loose
  ofScientific m s e := .exact (OfScientific.ofScientific m s e)
  decidableLT a b := inferInstanceAs (Decidable (a.loose < b.loose))
  decidableLE a b := inferInstanceAs (Decidable (a.loose ≤ b.loose))
  isFinite _ := true

end SimplexMethod
