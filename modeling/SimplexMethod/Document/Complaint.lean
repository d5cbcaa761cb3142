/-!
# Complaints about documents

Reading a document either accepts it with a value or refuses it with every complaint there is, each
with the path to the place it is about. Reading the fields of a record is applicative: the
complaints of all fields are collected in the order of the fields.
-/

namespace SimplexMethod.Document

/-- What is wrong at one place of a document. -/
inductive Failure where
  | missing
  | notRecord (schema : String)
  | notFloat
  | floatText
  | notInt
  | intText
  | intFraction
  | intNotFinite
  | intTooLong
  | belowLeast (least : Int)
  | notBool
  | boolText
  | notString
  | notChoice (choices : List String)
  | notTuple
  | notList
  | tooShort (least found : Nat)
deriving DecidableEq

/-- Alternatives separated by commas, the last one by "or". -/
def alternatives : List String → String
  | [] => ""
  | [only] => only
  | [first, last] => first ++ " or " ++ last
  | first :: rest => first ++ ", " ++ alternatives rest

namespace Failure

/-- The written form of a kind of failure. -/
def kind : Failure → String
  | missing => "missing"
  | notRecord _ => "model_type"
  | notFloat => "float_type"
  | floatText => "float_parsing"
  | notInt => "int_type"
  | intText => "int_parsing"
  | intFraction => "int_from_float"
  | intNotFinite => "finite_number"
  | intTooLong => "int_parsing_size"
  | belowLeast _ => "greater_than_equal"
  | notBool => "bool_type"
  | boolText => "bool_parsing"
  | notString => "string_type"
  | notChoice _ => "literal_error"
  | notTuple => "tuple_type"
  | notList => "list_type"
  | tooShort _ _ => "too_short"

/-- The wording of a failure. -/
def message : Failure → String
  | missing => "Field required"
  | notRecord schema => s!"Input should be a valid dictionary or instance of {schema}"
  | notFloat => "Input should be a valid number"
  | floatText => "Input should be a valid number, unable to parse string as a number"
  | notInt => "Input should be a valid integer"
  | intText => "Input should be a valid integer, unable to parse string as an integer"
  | intFraction => "Input should be a valid integer, got a number with a fractional part"
  | intNotFinite => "Input should be a finite number"
  | intTooLong => "Unable to parse input string as an integer, exceeded maximum size"
  | belowLeast least => s!"Input should be greater than or equal to {least}"
  | notBool => "Input should be a valid boolean"
  | boolText => "Input should be a valid boolean, unable to interpret input"
  | notString => "Input should be a valid string"
  | notChoice choices => "Input should be " ++ alternatives choices
  | notTuple => "Input should be a valid tuple"
  | notList => "Input should be a valid list"
  | tooShort least found =>
    s!"Tuple should have at least {least} item after validation, not {found}"

end Failure

/-- One step into a document. -/
inductive Step where
  | field (name : String)
  | index (position : Nat)
deriving DecidableEq

/-- A failure and the path to it. -/
structure Complaint where
  failure : Failure
  path : List Step := []
deriving DecidableEq

/-- The outcome of reading a document. -/
inductive Checked (β : Type) where
  | accepted (value : β)
  | refused (complaints : List Complaint)

namespace Checked

variable {β γ : Type}

/-- Accept both or collect the complaints of both. -/
def combine (f : Checked (β → γ)) (x : Checked β) : Checked γ :=
  match f, x with
  | accepted f, accepted x => accepted (f x)
  | accepted _, refused complaints => refused complaints
  | refused complaints, accepted _ => refused complaints
  | refused earlier, refused later => refused (earlier ++ later)

instance : Applicative Checked where
  pure := accepted
  seq f x := combine f (x ())

/-- Refuse with one complaint about the place itself. -/
def fail (failure : Failure) : Checked β :=
  refused [{ failure }]

/-- The same outcome, one step further from the root. -/
def under (step : Step) : Checked β → Checked β
  | accepted value => accepted value
  | refused complaints =>
    refused (complaints.map fun complaint => { complaint with path := step :: complaint.path })

/-- The outcome is a value. -/
def isAccepted : Checked β → Bool
  | accepted _ => true
  | refused _ => false

@[simp] theorem pure_eq (value : β) : (pure value : Checked β) = accepted value := rfl

@[simp] theorem accepted_seq_accepted (f : β → γ) (value : β) :
    (accepted f <*> accepted value) = accepted (f value) := rfl

@[simp] theorem map_accepted (f : β → γ) (value : β) :
    (f <$> accepted value) = accepted (f value) := rfl

@[simp] theorem under_accepted (step : Step) (value : β) :
    (accepted value).under step = accepted value := rfl

end Checked

/-- A document refused as a record of a schema, with the complaints about it. -/
structure Refusal where
  schema : String
  complaints : List Complaint
deriving DecidableEq

end SimplexMethod.Document
