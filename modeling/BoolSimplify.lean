import BoolSimplify.Engine.Nested
import BoolSimplify.Expression
import BoolSimplify.FileTree
import BoolSimplify.Group.Balance
import BoolSimplify.Main
import BoolSimplify.Proofs.Balance
import BoolSimplify.Proofs.Matching
import BoolSimplify.Proofs.Nesting
import BoolSimplify.Proofs.Operands
import BoolSimplify.Proofs.Reading
import BoolSimplify.Proofs.Rewriting
import BoolSimplify.Proofs.Strength
import BoolSimplify.RuleText.Declaration
import BoolSimplify.Tour
import BoolSimplify.Proofs.Identity
import BoolSimplify.Proofs.Soundness
import BoolSimplify.Proofs.Catalog
import BoolSimplify.Proofs.Layout
import BoolSimplify.Proofs.Preservation
import BoolSimplify.Proofs.Convergence
import BoolSimplify.Proofs.Arrangement
import BoolSimplify.Proofs.Stability
import BoolSimplify.Proofs.Recursion
import BoolSimplify.Proofs.Composition
import BoolSimplify.Proofs.Malformed
import BoolSimplify.Proofs.Contraction
import BoolSimplify.Proofs.Order
import BoolSimplify.Proofs.Evaluation
import BoolSimplify.Proofs.Unbalanced
import BoolSimplify.Proofs.Budget
import BoolSimplify.Proofs.History
import BoolSimplify.Proofs.Declaration
import BoolSimplify.Proofs.Parentheses
import BoolSimplify.Proofs.Equivariance
import BoolSimplify.Proofs.Groups
import BoolSimplify.Proofs.Log
import BoolSimplify.Proofs.Counters
import BoolSimplify.Proofs.Lines
import BoolSimplify.Proofs.Batch
import BoolSimplify.Proofs.Lexemes
import BoolSimplify.Proofs.Notation
import BoolSimplify.Proofs.Spelling
import BoolSimplify.Proofs.Room
import BoolSimplify.Proofs.Arguments
import BoolSimplify.Proofs.BatchMode
import BoolSimplify.Proofs.ArgumentMode
import BoolSimplify.Proofs.NormalForm
import BoolSimplify.Proofs.Changes
import BoolSimplify.Proofs.Exhaustion
import BoolSimplify.Proofs.Scans
import BoolSimplify.Proofs.Redundancy
import BoolSimplify.Proofs.Fragments
import BoolSimplify.Proofs.Occurrences
import BoolSimplify.Proofs.Neighbours
import BoolSimplify.Proofs.Barrier
import BoolSimplify.Proofs.Recognition
import BoolSimplify.Proofs.Precedence
import BoolSimplify.Proofs.FailureMark
