import SimplexMethod.Document.Results
import SimplexMethod.Fault

/-!
# Answers as documents

How a solve is answered to a caller that exchanges documents: the history and the report, or a
short answer for a problem without rows.
-/

namespace SimplexMethod.Service

open Document (Value)

/-- The answer to a problem without rows. -/
def nothingGiven : List (String × Value) :=
  [("status", .string "empty"), ("message", .string "No constraints were given.")]

/-- Write the answer to a problem. -/
def ofAnswer (answer : Answer Float) : Value :=
  match answer.result? with
  | none => .object (nothingGiven ++ [("history", .list [])])
  | some result => Document.ofResult result.toRecord

/-- Solve a problem and write the answer. -/
def solveDocument (problem : Problem Float) (options : Options Float) : Except Fault Value := do
  return ofAnswer (← Fault.ofTableau (solve problem options))

end SimplexMethod.Service
