import SimplexMethod.Text.Blank

/-!
# Decimal numerals

Reading numbers from text. A numeral is an optional sign and either a decimal, with an optional
point and an optional power of ten, or the name of an infinity or of a NaN. An integer numeral is
an optional minus sign and digits, and `readInteger` says what may stand around them. Digits are
ASCII digits. Underscores that part the digits of a long numeral are no part of it:
`withoutUnderscores?` takes them out.
-/

namespace SimplexMethod.Decimal

/-- A decimal number: its sign, the number its digits make up, and the power of ten it is scaled
by. Zero has a sign too. -/
structure Numeral where
  negative : Bool
  digits : Nat
  exponent : Int
deriving DecidableEq

/-- What the text of a number says. -/
inductive Reading where
  | finite (numeral : Numeral)
  | infinite (negative : Bool)
  | nan
deriving DecidableEq

/-- The number with the given digits. -/
def ofDigits (digits : List Nat) : Nat :=
  digits.foldl (fun value digit => 10 * value + digit) 0

/-- The number that the digits make up. -/
def digitsValue (digits : List Char) : Nat :=
  ofDigits (digits.map fun c => c.toNat - '0'.toNat)

/-- Split a sign off. Without a sign a number is positive. -/
def splitSign : List Char → Bool × List Char
  | '-' :: rest => (true, rest)
  | '+' :: rest => (false, rest)
  | text => (false, text)

/-- A power of ten: a sign and at least one digit. -/
def readExponent (text : List Char) : Option Int :=
  let (negative, digits) := splitSign text
  if digits.isEmpty || !digits.all Char.isDigit then none
  else if negative then some (-(digitsValue digits : Int))
  else some (digitsValue digits)

/-- A decimal without its sign: digits on at least one side of an optional point, and an optional
power of ten. -/
def readUnsigned (negative : Bool) (text : List Char) : Option Numeral :=
  let (whole, rest) := text.span Char.isDigit
  let (fraction, rest) :=
    match rest with
    | '.' :: rest => rest.span Char.isDigit
    | rest => ([], rest)
  if whole.isEmpty && fraction.isEmpty then none
  else
    let scaled (exponent : Int) : Numeral :=
      ⟨negative, digitsValue (whole ++ fraction), exponent - fraction.length⟩
    match rest with
    | [] => some (scaled 0)
    | c :: rest => if c = 'e' ∨ c = 'E' then (readExponent rest).map scaled else none

/-- Read the text of a number. The names of the infinities and of NaN may be in any case. -/
def read? (text : List Char) : Option Reading :=
  let (negative, unsigned) := splitSign text
  let name := String.ofList (unsigned.map Char.toLower)
  if name = "inf" ∨ name = "infinity" then some (.infinite negative)
  else if name = "nan" then some .nan
  else (readUnsigned negative unsigned).map .finite

/-- The text without its underscores, each of which must stand between two other characters. -/
def withoutUnderscores? (text : List Char) : Option (List Char) :=
  let groups := text.splitOn '_'
  if 1 < groups.length && groups.any List.isEmpty then none else some groups.flatten

/-- Why the text of an integer is refused. -/
inductive IntegerFault where
  | malformed
  | tooLong
deriving DecidableEq

/-- The most digits of an integer that is read. -/
def mostDigits : Nat :=
  4300

/-- Split a minus sign off. -/
def splitMinus : List Char → Bool × List Char
  | '-' :: rest => (true, rest)
  | text => (false, text)

/-- The text begins with too many digits, perhaps after a minus sign, and the first is no zero. -/
def beginsTooLong (text : List Char) : Bool :=
  let digits := (splitMinus text).2.takeWhile Char.isDigit
  digits.head? ≠ some '0' && mostDigits < digits.length

/-- The text without a plus sign in front, which no minus sign may follow. -/
def withoutPlus? : List Char → Option (List Char)
  | '+' :: '-' :: _ => none
  | '+' :: rest => some rest
  | text => some text

/-- The text behind `last`, without the zeros and underscores in front of it. Where a point or the
end follows, the last of them stays. -/
def dropZerosAfter (last : Char) : List Char → List Char
  | [] => [last]
  | c :: rest =>
    if c = '0' ∨ c = '_' then dropZerosAfter c rest
    else if c = '.' then last :: c :: rest
    else c :: rest

/-- The text without the zeros in front of a numeral and the underscores among them. -/
def dropLeadingZeros : List Char → List Char
  | '0' :: rest => dropZerosAfter '0' rest
  | text => text

/-- The text without the zeros in front of a numeral. Behind a minus sign in front, which stays,
there has to be a digit. -/
def withoutLeadingZeros? (text : List Char) : Option (List Char) :=
  match splitMinus text with
  | (true, digits) =>
    if digits.head?.any Char.isDigit then some ('-' :: dropLeadingZeros digits) else none
  | (false, text) => some (dropLeadingZeros text)

/-- The text without a fraction of at least one zero and nothing else. -/
def dropZeroFraction (text : List Char) : List Char :=
  match text.span (· ≠ '.') with
  | (whole, '.' :: '0' :: zeros) => if zeros.all (· = '0') then whole else text
  | _ => text

/-- Read a plain integer: an optional minus sign and not too many digits, of which the first is no
zero unless it is the only one. -/
def readPlainInteger? (text : List Char) : Option Int :=
  let (negative, digits) := splitMinus text
  if digits.isEmpty || !digits.all Char.isDigit || mostDigits < digits.length then none
  else if digits.head? = some '0' && 1 < digits.length then none
  else some (if negative then -(digitsValue digits : Int) else digitsValue digits)

/-- Read the text of an integer. A text that begins with too many digits is too long whatever
follows them. Otherwise blanks around the text, a plus sign, zeros in front, a fraction of zeros
and underscores are dropped in this order, which has to leave a plain integer. Zeros are dropped
once, behind a minus sign in front or before one that follows them. -/
def readInteger (text : List Char) : Except IntegerFault Int :=
  if beginsTooLong text then .error .tooLong
  else
    let plain? := do
      let digits ← withoutLeadingZeros? (← withoutPlus? (Text.trim text))
      readPlainInteger? (← withoutUnderscores? (dropZeroFraction digits))
    match plain? with
    | some n => .ok n
    | none => .error .malformed

/-- The double nearest to a number. The power of ten is cut to the range in which it matters: the
magnitude is between `10 ^ (exponent + count - 1)` and `10 ^ (exponent + count)`, where `count` is
the number of digits. -/
def Numeral.toFloat (numeral : Numeral) : Float :=
  let count := (Nat.toDigits 10 numeral.digits).length
  let magnitude : Float :=
    if numeral.digits = 0 then 0
    else if 310 < numeral.exponent + count then 1 / 0
    else if numeral.exponent + count < -330 then 0
    else match numeral.exponent with
      | .ofNat n => Float.ofScientific numeral.digits false n
      | .negSucc n => Float.ofScientific numeral.digits true (n + 1)
  if numeral.negative then -magnitude else magnitude

/-- The double nearest to what a text says. -/
def Reading.toFloat : Reading → Float
  | .finite numeral => numeral.toFloat
  | .infinite negative => if negative then -(1 / 0) else 1 / 0
  | .nan => 0 / 0

end SimplexMethod.Decimal
