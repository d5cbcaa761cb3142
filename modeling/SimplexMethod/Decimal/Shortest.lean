import SimplexMethod.Decimal.Binary

/-!
# Decimal digits of a binary number

`shortest` gives the fewest digits that read back as the double they came from, and of those the
digits nearest to it. `significant` rounds to a number of significant digits and `places` to a
number of decimal places; both send a half to the even neighbour.

All three work on a positive significand and an exponent in exact arithmetic.
-/

namespace SimplexMethod.Decimal

/-- The positive number `0.d₁d₂d₃… · 10 ^ point`, where `d₁d₂d₃…` are the digits. -/
structure Digits where
  digits : List Char
  point : Int
deriving DecidableEq

namespace Digits

/-- The digits of a positive number of units of `10 ^ exponent`. -/
def ofNat (number : Nat) (exponent : Int) : Digits :=
  let digits := Nat.toDigits 10 number
  ⟨digits, exponent + digits.length⟩

/-- Drop the zeros at the end. -/
def trimmed (d : Digits) : Digits :=
  { d with digits := (d.digits.reverse.dropWhile (· = '0')).reverse }

end Digits

/-- Ten to a power. -/
def tenTo (n : Nat) : Nat :=
  Nat.pow 10 n

/-- The numerator and denominator of `num / den · 10 ^ exponent`. -/
def decimalQuotient (num den : Nat) : Int → Nat × Nat
  | .ofNat n => (num * tenTo n, den)
  | .negSucc n => (num, den * tenTo (n + 1))

/-- The exponent of the greatest power of ten that is at most `num / den`. The number of digits of
the two parts leaves only two candidates. -/
def decimalExponent (num den : Nat) : Int :=
  let guess : Int := (Nat.toDigits 10 num).length - (Nat.toDigits 10 den).length
  let (n, d) := decimalQuotient num den (-guess)
  if n < d then guess - 1 else guess

/-- The numbers that read back as a double: an interval around it, whose ends belong to it if the
significand is even. All three are multiples of a common unit. -/
structure Interval where
  low : Nat
  middle : Nat
  high : Nat
  unit : Int
  closed : Bool

namespace Interval

/-- The interval of a double. It reaches half way to the two neighbours, and the lower neighbour of
a power of two is nearer. -/
def ofBinary (b : Binary) : Interval :=
  { low := if b.significand = twoTo 52 ∧ -1074 < b.exponent then 4 * b.significand - 1
      else 4 * b.significand - 2
    middle := 4 * b.significand
    high := 4 * b.significand + 2
    unit := b.exponent - 2
    closed := b.significand % 2 = 0 }

/-- A number, given in the unit of the interval as a quotient, lies in the interval. -/
def contains (interval : Interval) (num den : Nat) : Bool :=
  if interval.closed then interval.low * den ≤ num ∧ num ≤ interval.high * den
  else interval.low * den < num ∧ num < interval.high * den

/-- The nearest of the two neighbours of the middle on the grid of multiples of `10 ^ exponent`, if
it lies in the interval. A tie goes to the even neighbour. -/
def onGrid? (interval : Interval) (exponent : Int) : Option Nat :=
  let (num, den) := scaledQuotient interval.middle 1 interval.unit
  let (n, d) := decimalQuotient num den (-exponent)
  let inUnits (k : Nat) : Nat × Nat :=
    let (stepNum, stepDen) := decimalQuotient k 1 exponent
    scaledQuotient stepNum stepDen (-interval.unit)
  let inside (k : Nat) : Bool :=
    let (num, den) := inUnits k
    interval.contains num den
  let nearest := roundHalfEven n d
  let other := if nearest = n / d then n / d + 1 else n / d
  if inside nearest then some nearest
  else if inside other then some other
  else none

end Interval

/-- The fewest digits that read back as the given non-zero double, and the nearest of those.
Seventeen digits always read back. -/
def shortest (b : Binary) : Digits :=
  let interval := Interval.ofBinary b
  let (num, den) := b.quotient
  let leading := decimalExponent num den
  let found := (List.range 17).findSome? fun more : Nat =>
    (interval.onGrid? (leading - more)).map fun number => Digits.ofNat number (leading - more)
  (found.getD (Digits.ofNat (roundHalfEven num den) 0)).trimmed

/-- A positive quotient rounded to a number of significant digits. -/
def significant (count : Nat) (num den : Nat) : Digits :=
  let exponent := decimalExponent num den - count + 1
  let (n, d) := decimalQuotient num den (-exponent)
  Digits.ofNat (roundHalfEven n d) exponent

/-- A quotient in units of `10 ^ (-count)`, rounded. -/
def places (count : Nat) (num den : Nat) : Nat :=
  roundHalfEven (num * tenTo count) den

end SimplexMethod.Decimal
