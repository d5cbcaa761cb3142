/-!
# Binary expansions of doubles

A finite double is a sign, a significand and a power of two. Everything exact about doubles is
computed on these three, and `nearestFloat` rounds an exact quotient back to the nearest double.
-/

namespace SimplexMethod.Decimal

/-- Two to a power. -/
def twoTo (n : Nat) : Nat :=
  1 <<< n

/-- The number `± significand · 2 ^ exponent`. -/
structure Binary where
  negative : Bool
  significand : Nat
  exponent : Int
deriving DecidableEq

namespace Binary

/-- The expansion of a finite double. -/
def ofFloat? (x : Float) : Option Binary :=
  let bits := x.toBits.toNat
  let negative : Bool := twoTo 63 ≤ bits
  let exponent : Nat := bits / twoTo 52 % twoTo 11
  let fraction : Nat := bits % twoTo 52
  if exponent = 2047 then none
  else if exponent = 0 then some ⟨negative, fraction, -1074⟩
  else some ⟨negative, twoTo 52 + fraction, (exponent : Int) - 1075⟩

/-- The magnitude as a fraction, numerator first. -/
def quotient (b : Binary) : Nat × Nat :=
  match b.exponent with
  | .ofNat n => (b.significand * twoTo n, 1)
  | .negSucc n => (b.significand, twoTo (n + 1))

/-- The number as a rational. -/
def toRat (b : Binary) : Rat :=
  let (num, den) := b.quotient
  mkRat (if b.negative then -(num : Int) else num) den

/-- The number as an integer, if it has no fraction. -/
def toInt? (b : Binary) : Option Int :=
  let (num, den) := b.quotient
  if num % den = 0 then
    some (if b.negative then -((num / den : Nat) : Int) else (num / den : Nat))
  else
    none

end Binary

/-- The quotient rounded to a natural number, a half going to the even neighbour. -/
def roundHalfEven (num den : Nat) : Nat :=
  let floor := num / den
  let twice := 2 * (num % den)
  if twice < den ∨ (twice = den ∧ floor % 2 = 0) then floor else floor + 1

/-- The numerator and denominator of `num / den · 2 ^ exponent`. -/
def scaledQuotient (num den : Nat) : Int → Nat × Nat
  | .ofNat n => (num * twoTo n, den)
  | .negSucc n => (num, den * twoTo (n + 1))

/-- The exponent of the greatest power of two that is at most `num / den`. -/
def binaryExponent (num den : Nat) : Int :=
  let guess : Int := (Nat.log2 num : Int) - Nat.log2 den
  let (n, d) := scaledQuotient num den (-guess)
  if n < d then guess - 1 else guess

/-- The double nearest to a rational, a tie going to the even significand. -/
def nearestFloat (q : Rat) : Float :=
  let num := q.num.natAbs
  let magnitude : Float :=
    if num = 0 then 0
    else
      let exponent := max (binaryExponent num q.den - 52) (-1074)
      let (n, d) := scaledQuotient num q.den (-exponent)
      (Float.ofNat (roundHalfEven n d)).scaleB exponent
  if q.num < 0 then -magnitude else magnitude

end SimplexMethod.Decimal
