import SimplexMethod.Problem.Basic
import SimplexMethod.Random.Twister

/-!
# Random instances

Maximisation problems with positive costs and rows that bound positive forms from above, so that
the origin is feasible and the feasible points are bounded.
-/

namespace SimplexMethod.Random

variable {α : Type} [Scalar α]

/-- A random row over the given number of variables: its coefficients, then its bound. -/
def row (dimension index : Nat) (twister : Twister) : Constraint α × Twister :=
  let (coefficients, twister) := twister.uniforms 0.5 5.0 dimension
  let (rhs, twister) :=
    twister.uniform (Scalar.ofNat dimension * 2.0) (Scalar.ofNat dimension * 6.0)
  ({ coefficients, rhs, relation := .atMost, name := s!"c{index}" }, twister)

/-- Random rows, which are numbered from `index` on. -/
def rows (dimension : Nat) : Nat → Nat → Twister → List (Constraint α) × Twister
  | 0, _, twister => ([], twister)
  | count + 1, index, twister =>
    let (first, twister) := row dimension index twister
    let (rest, twister) := rows dimension count (index + 1) twister
    (first :: rest, twister)

/-- The random problem of a seed: its rows, then its objective. -/
def problem (dimension rowCount : Nat) (seed : Int) : Problem α :=
  let (constraints, twister) := rows dimension rowCount 0 (Twister.ofSeed seed)
  let (coefficients, _) := twister.uniforms 1.0 4.0 dimension
  { objective := ⟨coefficients, .maximise⟩, constraints }

end SimplexMethod.Random
