import SimplexMethod.Decimal.Binary
import SimplexMethod.Decimal.Numeral
import SimplexMethod.Document.Complaint
import SimplexMethod.Document.Value
import SimplexMethod.Text.Blank

/-!
# Reading scalars and lists

How a document is understood where a number, a truth value, a text, a choice or a list is expected.
Readers are lenient: a text may hold a number, a truth value counts as zero or one, and a double
without a fraction is a whole number if it fits into 64 bits.
-/

namespace SimplexMethod.Document

open Decimal (Binary)

/-- One for true, zero for false. -/
def ofBool (value : Bool) : Int :=
  if value then 1 else 0

/-- The double that a text holds: a numeral between blanks, or one with underscores between its
characters and no blanks. -/
def floatOfText? (text : List Char) : Option Float :=
  (Decimal.read? (Text.trim text) <|> (Decimal.withoutUnderscores? text).bind Decimal.read?).map
    Decimal.Reading.toFloat

/-- Read a double: a number, a truth value, or a text that holds a number. A whole number must lie
in the range of doubles. -/
def readFloat : Value → Checked Float
  | .float x => .accepted x
  | .int n => if (Float.ofInt n).isFinite then .accepted (Float.ofInt n) else .fail .notFloat
  | .bool b => .accepted (Float.ofInt (ofBool b))
  | .string s =>
    match floatOfText? s.toList with
    | some x => .accepted x
    | none => .fail .floatText
  | _ => .fail .notFloat

/-- The least whole number that does not fit into a signed word of 64 bits. -/
def wordBound : Nat :=
  Decimal.twoTo 63

/-- The number fits into a signed word of 64 bits. -/
def fitsWord (n : Int) : Bool :=
  -(wordBound : Int) ≤ n && n < wordBound

/-- The whole number that a finite double is, of less than `wordBound` in magnitude. -/
def wholeNumber (b : Binary) : Checked Int :=
  match b.toInt? with
  | none => .fail .intFraction
  | some n => if n.natAbs < wordBound then .accepted n else .fail .intTooLong

/-- Read a whole number: one of any size, a truth value, a double without a fraction, or a text
that holds a whole number between blanks. -/
def readInt : Value → Checked Int
  | .int n => .accepted n
  | .bool b => .accepted (ofBool b)
  | .float x =>
    match Binary.ofFloat? x with
    | none => .fail .intNotFinite
    | some b => wholeNumber b
  | .string s =>
    match Decimal.readInteger s.toList with
    | .ok n => .accepted n
    | .error .tooLong => .fail .intTooLong
    | .error .malformed => .fail .intText
  | _ => .fail .notInt

/-- The texts that mean false. -/
def falseTexts : List String := ["0", "off", "f", "false", "n", "no"]

/-- The texts that mean true. -/
def trueTexts : List String := ["1", "on", "t", "true", "y", "yes"]

/-- Understand a whole number as a truth value. Only zero and one are any, and a number that does
not fit into a signed word of 64 bits is of the wrong kind. -/
def boolOfInt (n : Int) : Checked Bool :=
  if n = 0 then .accepted false
  else if n = 1 then .accepted true
  else if fitsWord n then .fail .boolText
  else .fail .notBool

/-- Read a truth value: itself, zero or one, or one of the texts, in any case of ASCII letters. -/
def readBool : Value → Checked Bool
  | .bool b => .accepted b
  | .int n => boolOfInt n
  | .float x =>
    match (Binary.ofFloat? x).map wholeNumber with
    | some (.accepted n) => boolOfInt n
    | _ => .fail .notBool
  | .string s =>
    if s.toLower ∈ falseTexts then .accepted false
    else if s.toLower ∈ trueTexts then .accepted true
    else .fail .boolText
  | _ => .fail .notBool

/-- Read a text: only itself. -/
def readString : Value → Checked String
  | .string s => .accepted s
  | _ => .fail .notString

/-- Read one of several choices by its written form. -/
def readChoice {β : Type} (choices : List β) (name : β → String) (value : Value) : Checked β :=
  let failure := Failure.notChoice (choices.map fun choice => "'" ++ name choice ++ "'")
  match value with
  | .string s =>
    match choices.find? (name · = s) with
    | some choice => .accepted choice
    | none => .fail failure
  | _ => .fail failure

/-- Choose a number by itself. -/
def chooseNumber (choices : List Int) (n : Int) : Checked Int :=
  if n ∈ choices then .accepted n else .fail (.notChoice (choices.map toString))

/-- Read one of several numbers. A truth value counts as zero or one, and a whole number that does
not fit into a signed word of 64 bits is refused for its size. -/
def readNumberChoice (choices : List Int) : Value → Checked Int
  | .int n => if fitsWord n then chooseNumber choices n else .fail .intTooLong
  | .bool b => chooseNumber choices (ofBool b)
  | .float x =>
    match (Binary.ofFloat? x).bind Binary.toInt? with
    | some n => chooseNumber choices n
    | none => .fail (.notChoice (choices.map toString))
  | _ => .fail (.notChoice (choices.map toString))

/-- Read null as nothing, and anything else as `read` does. -/
def readOptional {β : Type} (read : Value → Checked β) : Value → Checked (Option β)
  | .null => .accepted none
  | value => some <$> read value

/-- Read the items of a list, which are numbered from `index` on. -/
def readItems {β : Type} (read : Value → Checked β) : List Value → Nat → Checked (List β)
  | [], _ => .accepted []
  | item :: items, index =>
    List.cons <$> (read item).under (.index index) <*> readItems read items (index + 1)

/-- Read a list. -/
def readList {β : Type} (read : Value → Checked β) : Value → Checked (List β)
  | .list items => readItems read items 0
  | _ => .fail .notList

/-- Read a tuple, which is written as a list. -/
def readTuple {β : Type} (read : Value → Checked β) : Value → Checked (List β)
  | .list items => readItems read items 0
  | _ => .fail .notTuple

/-- Read a tuple of at least one item. Only items that can be read count. -/
def readNonemptyTuple {β : Type} (read : Value → Checked β) (value : Value) : Checked (List β) :=
  match value with
  | .list items =>
    if items.any fun item => (read item).isAccepted then readItems read items 0
    else
      (fun items (_ : List β) => items)
        <$> readItems read items 0
        <*> .fail (.tooShort 1 0)
  | _ => .fail .notTuple

/-- Read a field that must be there. -/
def required {β : Type} (value : Value) (name : String) (read : Value → Checked β) : Checked β :=
  match value.field? name with
  | some value => (read value).under (.field name)
  | none => (Checked.fail .missing).under (.field name)

/-- Read a field that has a default. -/
def optional {β : Type} (value : Value) (name : String) (default : β) (read : Value → Checked β) :
    Checked β :=
  match value.field? name with
  | some value => (read value).under (.field name)
  | none => .accepted default

/-- Read a record of a schema; only objects are records. -/
def readRecord {β : Type} (schema : String) (value : Value) (read : Value → Checked β) :
    Checked β :=
  match value with
  | .object _ => read value
  | _ => .fail (.notRecord schema)

end SimplexMethod.Document
