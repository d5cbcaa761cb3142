import SimplexMethod.Decimal.Shortest

/-!
# Written doubles

Where digits stand relative to the point, when a power of ten is written, and how zero, the
infinities and NaN are spelled. `plain` reads back as the number it came from, `general` shows six
significant digits, and `fixed` shows six decimal places.
-/

namespace SimplexMethod.Decimal

/-- The choices that are open in writing digits: how far to the right the point may stand before a
power of ten is written instead, and what ends a number without a fraction. -/
structure Style where
  greatestPoint : Int
  wholeEnd : String

/-- Positional up to sixteen digits before the point, which is always written. -/
def Style.plain : Style := ⟨16, ".0"⟩

/-- Positional up to six digits before the point, which is written before a fraction only. -/
def Style.general : Style := ⟨6, ""⟩

namespace Digits

/-- A number of zeros. -/
def zeros (count : Nat) : List Char :=
  List.replicate count '0'

/-- Write the digits around a point. -/
def positional (d : Digits) (wholeEnd : String) : String :=
  match d.point with
  | .negSucc n => "0." ++ String.ofList (zeros (n + 1) ++ d.digits)
  | .ofNat 0 => "0." ++ String.ofList d.digits
  | .ofNat n =>
    if d.digits.length ≤ n then
      String.ofList (d.digits ++ zeros (n - d.digits.length)) ++ wholeEnd
    else
      String.ofList (d.digits.take n) ++ "." ++ String.ofList (d.digits.drop n)

/-- Write one digit, the others as a fraction, and a power of ten of at least two digits. -/
def scientific (d : Digits) : String :=
  let exponent := d.point - 1
  let power := toString exponent.natAbs
  String.ofList (d.digits.take 1)
    ++ (if d.digits.length ≤ 1 then "" else "." ++ String.ofList (d.digits.drop 1))
    ++ (if exponent < 0 then "e-" else "e+")
    ++ (if power.length < 2 then "0" ++ power else power)

/-- A power of ten is written from four zeros after the point on, and where the style says. -/
def write (d : Digits) (style : Style) : String :=
  if -4 < d.point ∧ d.point ≤ style.greatestPoint then d.positional style.wholeEnd
  else d.scientific

end Digits

/-- Write a double: its sign, then the digits that `digits` finds for its magnitude. -/
def writeFloat (style : Style) (digits : Binary → Digits) (x : Float) : String :=
  match Binary.ofFloat? x with
  | none => if x == x then (if x < 0 then "-inf" else "inf") else "nan"
  | some b =>
    (if b.negative then "-" else "")
      ++ if b.significand = 0 then "0" ++ style.wholeEnd else (digits b).write style

/-- The shortest text that reads back as the double. -/
def plain (x : Float) : String :=
  writeFloat .plain shortest x

/-- Six significant digits without zeros at the end. -/
def general (x : Float) : String :=
  writeFloat .general (fun b => (significant 6 b.quotient.1 b.quotient.2).trimmed) x

/-- Six decimal places. What rounds to zero has no sign. -/
def fixed (x : Float) : String :=
  match Binary.ofFloat? x with
  | none => if x == x then (if x < 0 then "-inf" else "inf") else "nan"
  | some b =>
    let units := places 6 b.quotient.1 b.quotient.2
    let fraction := Nat.toDigits 10 (units % tenTo 6)
    (if b.negative ∧ units ≠ 0 then "-" else "")
      ++ toString (units / tenTo 6) ++ "."
      ++ String.ofList (Digits.zeros (6 - fraction.length) ++ fraction)

end SimplexMethod.Decimal
