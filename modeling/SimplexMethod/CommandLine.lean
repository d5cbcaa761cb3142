import SimplexMethod.Decimal.Numeral
import SimplexMethod.Document.Printer
import SimplexMethod.Document.Reader
import SimplexMethod.Document.Writer
import SimplexMethod.Fault
import SimplexMethod.Random.Instance
import SimplexMethod.Text.Blank
import SimplexMethod.Text.Digit

/-!
# The instance generator

The command line of the generator: how many variables, rows and instances, and the seed of the
first instance. A flag may be cut short as long as it can be told from the others, and the last of
several of one kind counts. A value of two dashes after an equals sign stands for no number. The
instances are printed as one list of documents.
-/

namespace SimplexMethod.CommandLine

/-- What is asked for. Without a seed the first instance has seed zero; the other numbers are
needed once an instance is made. -/
structure Settings where
  dimension : Option Int := some 3
  rowCount : Option Int := some 3
  seed : Option Int := none
  count : Option Int := some 1

/-- What an argument sets. -/
inductive Flag where
  | dimension
  | rowCount
  | seed
  | count
deriving DecidableEq

namespace Flag

/-- All flags. -/
def all : List Flag := [.dimension, .rowCount, .seed, .count]

/-- The written form of a flag. -/
def name : Flag → String
  | dimension => "--vars"
  | rowCount => "--constraints"
  | seed => "--seed"
  | count => "--count"

end Flag

/-- Set what a flag sets. -/
def Settings.set (settings : Settings) (flag : Flag) (value : Option Int) : Settings :=
  match flag with
  | .dimension => { settings with dimension := value }
  | .rowCount => { settings with rowCount := value }
  | .seed => { settings with seed := value }
  | .count => { settings with count := value }

/-- What an argument is at first sight: a flag, perhaps with its value after an equals sign, a word
that looks like a flag but is none, or a value. -/
inductive Argument where
  | flag (flag : Flag) (value : Option String)
  | stray (text : String)
  | value (text : String)

/-- Why arguments are refused. -/
inductive UsageFault where
  | unknown (arguments : List String)
  | ambiguous (argument : String) (candidates : List Flag)
  | noValue (flag : Flag)
  | notInt (flag : Flag) (value : String)

/-- The wording of a refusal. -/
def UsageFault.message : UsageFault → String
  | .unknown arguments => "unrecognized arguments: " ++ " ".intercalate arguments
  | .ambiguous argument candidates =>
    s!"ambiguous option: {argument} could match " ++ ", ".intercalate (candidates.map Flag.name)
  | .noValue flag => s!"argument {flag.name}: expected one argument"
  | .notInt flag value => s!"argument {flag.name}: invalid int value: '{value}'"

/-- An argument split at its first equals sign, if it has one. -/
def splitArgument (argument : String) : String × Option String :=
  let (name, rest) := argument.toList.span (· ≠ '=')
  match rest with
  | [] => (argument, none)
  | _ :: value => (String.ofList name, some (String.ofList value))

/-- The flags that a name stands for: the flag of that name, or all whose names begin with it. -/
def candidates (name : String) : List Flag :=
  match Flag.all.find? (·.name = name) with
  | some flag => [flag]
  | none => Flag.all.filter fun flag => name.toList.isPrefixOf flag.name.toList

/-- The characters are the digits of a number, or of a decimal with at least one digit behind its
point. A new line may follow. -/
def isNumeral (text : List Char) : Bool :=
  let isDigit (c : Char) : Bool := (Text.digit? c).isSome
  let line := if text.getLast? = some '\n' then text.dropLast else text
  let (whole, rest) := line.span isDigit
  match rest with
  | [] => !whole.isEmpty
  | '.' :: fraction => !fraction.isEmpty && fraction.all isDigit
  | _ => false

/-- The argument begins with a dash and more follows. -/
def isDashed (argument : String) : Bool :=
  match argument.toList with
  | '-' :: rest => !rest.isEmpty
  | _ => false

/-- The dashed argument is a value all the same: a negative number, or words. -/
def isDashedValue (argument : String) : Bool :=
  isNumeral (argument.toList.drop 1) || argument.toList.contains ' '

/-- Tell what an argument is. -/
def classify (argument : String) : Except UsageFault Argument :=
  if !isDashed argument then .ok (.value argument)
  else
    let (name, value) := splitArgument argument
    match candidates name with
    | [flag] => .ok (.flag flag value)
    | [] => .ok (if isDashedValue argument then .value argument else .stray argument)
    | flags => .error (.ambiguous argument flags)

/-- Tell what all arguments are. Behind two dashes there are values only. -/
def classifyAll : List String → Except UsageFault (List Argument)
  | [] => .ok []
  | "--" :: rest => .ok (.stray "--" :: rest.map .value)
  | argument :: rest => do
    return (← classify argument) :: (← classifyAll rest)

/-- Read a whole number between blanks: an optional sign and digits of any script, not too many,
which single underscores may part. -/
def readInt? (text : String) : Option Int := do
  let (negative, unsigned) := Decimal.splitSign (Text.trim text.toList)
  let digits ← (← Decimal.withoutUnderscores? unsigned).mapM Text.digit?
  guard (!digits.isEmpty && digits.length ≤ Decimal.mostDigits)
  let value : Int := Decimal.ofDigits digits
  return if negative then -value else value

/-- Set a flag to the number that a text holds. -/
def Settings.assign (settings : Settings) (flag : Flag) (value : String) :
    Except UsageFault Settings :=
  match readInt? value with
  | some n => .ok (settings.set flag (some n))
  | none => .error (.notInt flag value)

/-- Read arguments from left to right: a flag has a value, after its equals sign or as the next
argument. Arguments that belong to no flag are collected. -/
def read (settings : Settings) : List Argument → Except UsageFault (Settings × List String)
  | [] => .ok (settings, [])
  | .flag flag (some "--") :: rest => read (settings.set flag none) rest
  | .flag flag (some value) :: rest => do
    read (← settings.assign flag value) rest
  | .flag flag none :: .value value :: rest => do
    read (← settings.assign flag value) rest
  | .flag flag none :: _ => .error (.noValue flag)
  | .stray text :: rest | .value text :: rest => do
    let (settings, unknown) ← read settings rest
    return (settings, text :: unknown)

/-- The settings that arguments ask for. Arguments that belong to no flag are refused once all
others are found to be in order. -/
def parse (arguments : List String) : Except UsageFault Settings := do
  let (settings, unknown) ← read {} (← classifyAll arguments)
  if unknown.isEmpty then
    return settings
  else
    throw (.unknown unknown)

/-- A random problem with its objective read as a record: it needs at least one coefficient. -/
def generate (dimension rowCount seed : Int) : Except Document.Refusal (Problem Float) := do
  let problem : Problem Float := Random.problem dimension.toNat rowCount.toNat seed
  let objective ←
    (Document.readObjective (Document.ofObjective problem.objective)).orRefusal "ObjectiveFunction"
  return { problem with objective }

/-- A problem as a document. -/
def ofProblem (problem : Problem Float) : Document.Value :=
  .object [("objective", Document.ofObjective problem.objective),
    ("constraints", .list (problem.constraints.map Document.ofConstraint))]

/-- Why no instances are made. -/
inductive InstanceFault where
  | noNumber (flag : Flag)
  | refused (refusal : Document.Refusal)

/-- The wording of a fault, a line for each complaint. -/
def InstanceFault.message : InstanceFault → String
  | .noNumber flag => s!"argument {flag.name}: no number"
  | .refused refusal => "\n".intercalate (refusal.complaints.map (·.failure.message))

/-- The number that a flag has to have. -/
def needed (flag : Flag) (value : Option Int) : Except InstanceFault Int :=
  match value with
  | some n => .ok n
  | none => .error (.noNumber flag)

/-- The text of the instances asked for. -/
def instances (settings : Settings) : Except InstanceFault String := do
  let count ← needed .count settings.count
  let problems ← (List.range count.toNat).mapM fun (index : Nat) => do
    let rowCount ← needed .rowCount settings.rowCount
    let dimension ← needed .dimension settings.dimension
    (generate dimension rowCount (settings.seed.getD 0 + index)).mapError .refused
  return Document.print 0 (.list (problems.map ofProblem)) ++ "\n"

end SimplexMethod.CommandLine
