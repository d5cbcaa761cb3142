import SimplexMethod.Decimal.Numeral
import SimplexMethod.Decimal.Shortest
import SimplexMethod.Reference.Relaxed
import SimplexMethod.Reference.StandardForm

/-!
# An oracle in exact arithmetic

The method itself is an oracle when it computes with rationals and tolerates nothing. A double is
taken for the decimal it is written as, and nothing but the answer is rounded.

Data that were rounded before may contradict each other by what was rounded off. So every row is
relaxed a little: the oracle finds out which rows hold with equality in the relaxed form and reports
what their tight bounds say. The allowance grows if the form is infeasible under a smaller one.
-/

namespace SimplexMethod

namespace BoundedForm

variable {α β : Type}

/-- Change the arithmetic of a form. -/
def map (f : α → β) (form : BoundedForm α) : BoundedForm β :=
  ⟨form.coefficients.map f, f form.bound⟩

/-- The form as a row that may exceed its bound by an allowance. -/
def relaxed (allowance : Rat) (form : BoundedForm Rat) : Constraint Relaxed where
  coefficients := form.coefficients.map .exact
  rhs := ⟨form.bound + allowance, form.bound⟩
  relation := .atMost

end BoundedForm

namespace StandardForm

variable {α β : Type}

/-- Change the arithmetic of a standard form. -/
def map (f : α → β) (form : StandardForm α) : StandardForm β :=
  ⟨form.costs.map f, form.upper.map (·.map f), form.equal.map (·.map f)⟩

/-- The standard form as a problem in which every form may be off by an allowance, those of the
equations to both sides. -/
def relaxed (allowance : Rat) (form : StandardForm Rat) : Problem Relaxed where
  objective := ⟨form.costs.map .exact, .minimise⟩
  constraints :=
    (form.upper ++ form.equal ++ form.equal.map (·.map (- ·))).map (·.relaxed allowance)

end StandardForm

/-- Read a verdict off a finished solve. -/
def Outcome.verdict (outcome : Outcome Relaxed) (costs : List Rat) : Verdict Rat :=
  match outcome.report.status, outcome.second with
  | .optimal, some run | .optimalWithAlternatives, some run =>
    let point := (run.last.solution costs.length).map Relaxed.tight
    .optimal point (dot costs point)
  | .infeasible, _ => .infeasible
  | .unbounded, _ => .unbounded
  | _, _ => .undecided

/-- Solve a standard form in which every form may be off by an allowance. Without rows the origin is
best unless a cost is negative. -/
def verdictWithin (allowance : Rat) (form : StandardForm Rat) : Verdict Rat :=
  let problem := form.relaxed allowance
  if problem.constraints.isEmpty then
    if form.costs.any (· < 0) then .unbounded
    else .optimal (List.replicate form.costs.length 0) 0
  else
    match solveTwoPhase problem { tolerance := 0 } with
    | .ok outcome => outcome.verdict form.costs
    | .error _ => .undecided

/-- The allowances under which a form may be feasible, from small to large. -/
def allowances : List Rat := [1e-12, 1e-9, 1e-7]

/-- Solve a standard form under the first of the allowances that makes it feasible. -/
def firstFeasible (form : StandardForm Rat) : List Rat → Verdict Rat
  | [] => .infeasible
  | allowance :: larger =>
    match verdictWithin allowance form with
    | .infeasible => firstFeasible form larger
    | verdict => verdict

/-- The number that the digits stand for. -/
def Decimal.Digits.toRat (d : Digits) : Rat :=
  let (num, den) := decimalQuotient (digitsValue d.digits) 1 (d.point - d.digits.length)
  mkRat num den

/-- The decimal that a finite double is written as. -/
def decimalValue (x : Float) : Rat :=
  match Decimal.Binary.ofFloat? x with
  | none => 0
  | some b =>
    if b.significand = 0 then 0
    else if b.negative then -(Decimal.shortest b).toRat
    else (Decimal.shortest b).toRat

/-- A verdict in doubles. -/
def Verdict.rounded : Verdict Rat → Verdict Float
  | .optimal point value => .optimal (point.map Decimal.nearestFloat) (Decimal.nearestFloat value)
  | .infeasible => .infeasible
  | .unbounded => .unbounded
  | .undecided => .undecided

/-- Solve a standard form of finite doubles. -/
def doubleVerdict (form : StandardForm Float) : Verdict Float :=
  (firstFeasible (form.map decimalValue) allowances).rounded

end SimplexMethod
