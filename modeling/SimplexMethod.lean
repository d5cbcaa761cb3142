import SimplexMethod.Main
import SimplexMethod.Document.Results
import SimplexMethod.Event.Wording
import SimplexMethod.Problem.Feasible
import SimplexMethod.Reference.Exact
import SimplexMethod.Service
import SimplexMethod.Session
import SimplexMethod.Tableau.Equations
import SimplexMethod.Proofs.Solve.Limit
import SimplexMethod.Proofs.Solve.Verdicts
import SimplexMethod.Proofs.Phases.Discerned
import SimplexMethod.Proofs.Solve.Breakdown
import SimplexMethod.Proofs.Solve.Alternatives
import SimplexMethod.Proofs.Phases.Resolution
import SimplexMethod.Proofs.Reference.Agreement
import SimplexMethod.Proofs.Solve.Feasibility
import SimplexMethod.Proofs.Solve.Uniqueness
import SimplexMethod.Proofs.Pivoting.Snapshots
import SimplexMethod.Proofs.Phases.Idle
import SimplexMethod.Proofs.Solve.History
import SimplexMethod.Proofs.Solve.Invariants
import SimplexMethod.Proofs.Solve.Systems
import SimplexMethod.Proofs.Pivoting.Budget
import SimplexMethod.Proofs.Solve.Routes
import SimplexMethod.Proofs.Solve.Truncation
import SimplexMethod.Proofs.Solve.Replay
import SimplexMethod.Proofs.Pivoting.Priced
import SimplexMethod.Proofs.Solve.Value
import SimplexMethod.Proofs.Solve.Bounds
import SimplexMethod.Proofs.Reference.CrossCheck
import SimplexMethod.Proofs.Solve.Redundancy
import SimplexMethod.Proofs.Solve.Presentation
import SimplexMethod.Proofs.Pivoting.Lockstep
import SimplexMethod.Proofs.Pivoting.Guard
import SimplexMethod.Proofs.Tableau.Unique
import SimplexMethod.Proofs.Tableau.Reversal
import SimplexMethod.Proofs.Pivoting.Recurrence
import SimplexMethod.Proofs.Solve.Scaling
import SimplexMethod.Proofs.Phases.Reduction
import SimplexMethod.Proofs.Phases.ReducedCosts
import SimplexMethod.Proofs.Solve.LastSnapshot
import SimplexMethod.Proofs.Solve.Prepared
import SimplexMethod.Proofs.Random.Instance
import SimplexMethod.Proofs.Solve.Modes
import SimplexMethod.Proofs.Problem.Refusal
import SimplexMethod.Proofs.Reference.Entries
import SimplexMethod.Proofs.Pivoting.Narration
import SimplexMethod.Proofs.Solve.Narration
import SimplexMethod.Proofs.Document.Fields
import SimplexMethod.Proofs.Document.Settled
import SimplexMethod.Proofs.Solve.Session
