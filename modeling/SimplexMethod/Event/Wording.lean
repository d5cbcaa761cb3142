import SimplexMethod.Decimal.Layout
import SimplexMethod.Event.Basic

/-!
# The wording of events

A log line is a level and a sentence. Pivot elements and artificial sums are shown with six
significant digits, the objective value with the digits that read back.
-/

namespace SimplexMethod

/-- The written form of an objective value, if there is one. -/
def writtenValue : Option Float → String
  | some value => Decimal.plain value
  | none => "None"

namespace Event

/-- The sentence for an event. -/
def message : Event Float → String
  | phaseOneNeeded rows => s!"phase 1 needed for rows {bracketed rows}"
  | pivoted phase number pivot =>
    s!"phase {phase} pivot {number}: entering column {pivot.entering}, "
      ++ s!"leaving row {pivot.leaving} (basic {pivot.basic}), "
      ++ s!"element {Decimal.general pivot.element}"
  | basisRepeated phase basis =>
    s!"basis {bracketed basis} repeated in phase {phase}; switching to Bland's rule"
  | noPositiveEntry phase column => s!"phase {phase}: column {column} has no positive entry"
  | stopped phase iterations => s!"phase {phase} stopped after {iterations} iterations"
  | rowsDropped rows => s!"dropped redundant constraint rows {bracketed rows}"
  | artificialSumLeft sum => s!"phase 1 ended with artificial sum {Decimal.general sum}"
  | auxiliaryUnbounded => "phase 1 auxiliary problem reported unbounded"
  | rejected fault => s!"rejected problem: {fault.message}"
  | nothingToSolve => "no constraints given; nothing to solve"
  | finished status objectiveValue iterations =>
    s!"simplex finished: status={status.name} "
      ++ s!"objective={writtenValue objectiveValue} iterations={iterations}"

end Event

end SimplexMethod
