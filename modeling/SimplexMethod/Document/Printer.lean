import SimplexMethod.Decimal.Layout
import SimplexMethod.Document.Value

/-!
# Printed documents

A document as indented text: two blanks for each level, one item or field to a line, empty lists
and objects without a line of their own. Text is in ASCII; other characters are escaped by their
UTF-16 units.
-/

namespace SimplexMethod.Document

/-- The digits of a 16-bit unit. -/
def unitDigits (unit : Nat) : String :=
  let digits := Nat.toDigits 16 unit
  String.ofList (List.replicate (4 - digits.length) '0' ++ digits)

/-- A 16-bit unit as an escape. -/
def escapedUnit (unit : Nat) : String :=
  "\\u" ++ unitDigits unit

/-- A character inside quotes. -/
def quotedChar (c : Char) : String :=
  if c = '"' then "\\\""
  else if c = '\\' then "\\\\"
  else if c = '\n' then "\\n"
  else if c = '\r' then "\\r"
  else if c = '\t' then "\\t"
  else if c.toNat = 0x08 then "\\b"
  else if c.toNat = 0x0c then "\\f"
  else if 0x20 ≤ c.toNat ∧ c.toNat < 0x7f then String.singleton c
  else if c.toNat < 0x10000 then escapedUnit c.toNat
  else
    let beyond := c.toNat - 0x10000
    escapedUnit (0xd800 + beyond / 0x400) ++ escapedUnit (0xdc00 + beyond % 0x400)

/-- A text in quotes. -/
def quoted (text : String) : String :=
  "\"" ++ String.join (text.toList.map quotedChar) ++ "\""

/-- A double as a number that reads back. -/
def printedFloat (x : Float) : String :=
  if x.isFinite then Decimal.plain x
  else if x == x then (if x < 0 then "-Infinity" else "Infinity")
  else "NaN"

/-- A new line at a level of indentation. -/
def newLine (level : Nat) : String :=
  "\n" ++ String.ofList (List.replicate (2 * level) ' ')

/-- Parts between brackets, one to a line. -/
def bracket (left right : String) (level : Nat) (parts : List String) : String :=
  if parts.isEmpty then left ++ right
  else
    left ++ newLine (level + 1) ++ ("," ++ newLine (level + 1)).intercalate parts
      ++ newLine level ++ right

mutual

/-- A document at a level of indentation. -/
def print (level : Nat) : Value → String
  | .null => "null"
  | .bool b => if b then "true" else "false"
  | .int n => toString n
  | .float x => printedFloat x
  | .string s => quoted s
  | .list items => bracket "[" "]" level (printItems (level + 1) items)
  | .object fields => bracket "\x7b" "\x7d" level (printFields (level + 1) fields)

/-- The items of a list. -/
def printItems (level : Nat) : List Value → List String
  | [] => []
  | item :: items => print level item :: printItems level items

/-- The fields of an object. -/
def printFields (level : Nat) : List (String × Value) → List String
  | [] => []
  | (name, value) :: fields =>
    (quoted name ++ ": " ++ print level value) :: printFields level fields

end

end SimplexMethod.Document
