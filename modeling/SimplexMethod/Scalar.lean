/-!
# Scalars

Every rule of the method is written once, for any arithmetic that tableau entries can be computed
in. `Scalar` lists what the rules use and assumes no laws: the rationals satisfy the field laws,
binary floating-point numbers do not, and a NaN compares false with everything.
-/

namespace SimplexMethod

/-- An arithmetic for tableau entries: four operations, an order test, an equality test and
decimal constants. -/
class Scalar (α : Type) extends Zero α, One α, Neg α, Add α, Sub α, Mul α, Div α,
    LT α, LE α, BEq α, OfScientific α where
  decidableLT (a b : α) : Decidable (a < b)
  decidableLE (a b : α) : Decidable (a ≤ b)
  /-- Neither an infinity nor a NaN. -/
  isFinite : α → Bool

namespace Scalar

variable {α : Type} [Scalar α]

instance (a b : α) : Decidable (a < b) := decidableLT a b

instance (a b : α) : Decidable (a ≤ b) := decidableLE a b

/-- The scalar nearest to a natural number. -/
def ofNat (n : Nat) : α :=
  OfScientific.ofScientific n false 0

/-- The distance from zero. -/
def magnitude (a : α) : α :=
  if a < 0 then -a else a

/-- Replace a value of magnitude below `10⁻¹²` by zero; a NaN stays. -/
def clean (a : α) : α :=
  if magnitude a < 1e-12 then 0 else a

end Scalar

section LinearForm

variable {α : Type} [Scalar α]

/-- The sum of the products of corresponding entries. -/
def dot (a x : List α) : α :=
  (List.zipWith (· * ·) a x).sum

@[simp] theorem dot_nil (x : List α) : dot ([] : List α) x = 0 := rfl

@[simp] theorem dot_cons (a : α) (as : List α) (x : α) (xs : List α) :
    dot (a :: as) (x :: xs) = a * x + dot as xs := rfl

end LinearForm

instance : Scalar Rat where
  toZero := ⟨0⟩
  toOne := ⟨1⟩
  decidableLT _ _ := inferInstance
  decidableLE _ _ := inferInstance
  isFinite _ := true

instance : Scalar Float where
  decidableLT _ _ := inferInstance
  decidableLE _ _ := inferInstance
  isFinite := Float.isFinite

end SimplexMethod
