import TypeSolver.Main
import TypeSolver.Wire.Settings
import TypeSolver.Proofs.Subst.Binding
import TypeSolver.Proofs.Unify.Task
import TypeSolver.Proofs.Unify.Solutions
import TypeSolver.Proofs.Unify.ResolvedForm
import TypeSolver.Proofs.Solver.Pass
import TypeSolver.Proofs.Solver.Soundness
import TypeSolver.Proofs.Unify.Completeness
import TypeSolver.Proofs.Solver.Completeness
import TypeSolver.Proofs.Instance.Slots
import TypeSolver.Proofs.Solver.Call
import TypeSolver.Proofs.Solver.Hygiene
import TypeSolver.Proofs.Solver.Order
import TypeSolver.Proofs.Unify.Composition
import TypeSolver.Proofs.Unify.Refinement
import TypeSolver.Proofs.Solver.Prefix
import TypeSolver.Proofs.Solver.Refinement
import TypeSolver.Proofs.Ty.Renaming
import TypeSolver.Proofs.Unify.Renaming
import TypeSolver.Proofs.Solver.CallerNames
import TypeSolver.Proofs.Solver.Renaming
import TypeSolver.Proofs.Solver.Mismatch
import TypeSolver.Proofs.Solver.Account
import TypeSolver.Proofs.Unify.Ground
import TypeSolver.Proofs.Yaml.Lexer
import TypeSolver.Proofs.Config.Document
import TypeSolver.Proofs.Json.Number
import TypeSolver.Proofs.Json.Value
import TypeSolver.Proofs.Wire.Types
import TypeSolver.Proofs.Wire.Accepted
import TypeSolver.Proofs.Wire.Traces
import TypeSolver.Proofs.Wire.Nesting
import TypeSolver.Proofs.Wire.RoundTrip
import TypeSolver.Proofs.Solver.Redundancy
import TypeSolver.Proofs.Solver.CallSites
import TypeSolver.Proofs.Solver.StraightLine
import TypeSolver.Proofs.Instance.Naming
import TypeSolver.Proofs.Instance.Occurrences
import TypeSolver.Proofs.Solver.NamesApart
