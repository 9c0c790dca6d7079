import LikelyInvariants.Catalog
import LikelyInvariants.Config
import LikelyInvariants.Config.File
import LikelyInvariants.Config.Reading
import LikelyInvariants.Config.Selection
import LikelyInvariants.Context
import LikelyInvariants.Context.Edges
import LikelyInvariants.Context.Intake
import LikelyInvariants.Context.Split
import LikelyInvariants.Derivation
import LikelyInvariants.Derivation.Pass
import LikelyInvariants.Derivation.Recipe
import LikelyInvariants.Error
import LikelyInvariants.Implication.Canonical
import LikelyInvariants.Implication.Matching
import LikelyInvariants.Implication.OfChildren
import LikelyInvariants.Implication.Term
import LikelyInvariants.Invariant
import LikelyInvariants.Invariant.Combination
import LikelyInvariants.Invariant.Comparison
import LikelyInvariants.Invariant.Evidence
import LikelyInvariants.Invariant.Factory
import LikelyInvariants.Invariant.Kind
import LikelyInvariants.Invariant.Linear
import LikelyInvariants.Invariant.OneOf
import LikelyInvariants.Invariant.Unary
import LikelyInvariants.Number.Binary64
import LikelyInvariants.Number.Checked
import LikelyInvariants.Number.Shortest
import LikelyInvariants.Partition
import LikelyInvariants.Platform
import LikelyInvariants.Platform.Character.Age
import LikelyInvariants.Platform.Character.CaseFolding
import LikelyInvariants.Platform.Character.Category
import LikelyInvariants.Platform.Character.Class
import LikelyInvariants.Platform.Character.CodePoints
import LikelyInvariants.Platform.Character.NamedSet
import LikelyInvariants.Platform.Character.Printable
import LikelyInvariants.Platform.Character.Property
import LikelyInvariants.Platform.Character.Script
import LikelyInvariants.Platform.Character.ScriptExtension
import LikelyInvariants.Platform.Character.Segmentation
import LikelyInvariants.Platform.Character.Trait
import LikelyInvariants.Platform.Pattern
import LikelyInvariants.Platform.Pattern.Class
import LikelyInvariants.Platform.Pattern.Escape
import LikelyInvariants.Platform.Pattern.Reader
import LikelyInvariants.Platform.Pattern.Size
import LikelyInvariants.Platform.Shell.Arithmetic
import LikelyInvariants.Platform.Shell.Builtin
import LikelyInvariants.Platform.Shell.Condition
import LikelyInvariants.Platform.Shell.Expansion
import LikelyInvariants.Platform.Shell.Flow
import LikelyInvariants.Platform.Shell.Format
import LikelyInvariants.Platform.Shell.Glob
import LikelyInvariants.Platform.Shell.Machine
import LikelyInvariants.Platform.Shell.Program
import LikelyInvariants.Platform.Shell.Reader
import LikelyInvariants.Platform.Shell.Regex
import LikelyInvariants.Platform.Shell.Run
import LikelyInvariants.Platform.Shell.Script
import LikelyInvariants.Platform.Shell.Tool
import LikelyInvariants.Platform.Shell.Tool.Edit
import LikelyInvariants.Platform.Shell.Tool.Expression
import LikelyInvariants.Platform.Shell.Tool.Grep
import LikelyInvariants.Platform.Shell.Tool.Lines
import LikelyInvariants.Platform.SystemFile
import LikelyInvariants.Platform.Toml
import LikelyInvariants.Platform.Toml.Reader
import LikelyInvariants.Platform.Toml.Scalar
import LikelyInvariants.Point
import LikelyInvariants.Point.Growth
import LikelyInvariants.Point.Intake
import LikelyInvariants.Point.Views
import LikelyInvariants.Proofs.Catalog
import LikelyInvariants.Proofs.Derivation.Closure
import LikelyInvariants.Proofs.Derivation.Saturation
import LikelyInvariants.Proofs.Derivation.Sets
import LikelyInvariants.Proofs.Derivation.Termination
import LikelyInvariants.Proofs.Edges
import LikelyInvariants.Proofs.Evolution
import LikelyInvariants.Proofs.Falsification
import LikelyInvariants.Proofs.Family
import LikelyInvariants.Proofs.Filtering
import LikelyInvariants.Proofs.Fitting
import LikelyInvariants.Proofs.Flow
import LikelyInvariants.Proofs.Forest
import LikelyInvariants.Proofs.Identity
import LikelyInvariants.Proofs.Implication.Canonical
import LikelyInvariants.Proofs.Implication.Content
import LikelyInvariants.Proofs.Implication.Contrast
import LikelyInvariants.Proofs.Implication.Currency
import LikelyInvariants.Proofs.Implication.Matching
import LikelyInvariants.Proofs.Implication.Pairing
import LikelyInvariants.Proofs.Implication.Rebuilding
import LikelyInvariants.Proofs.Implication.Representative
import LikelyInvariants.Proofs.Implication.Soundness
import LikelyInvariants.Proofs.Intake
import LikelyInvariants.Proofs.Invariant.Exclusion
import LikelyInvariants.Proofs.Invariant.Feeding
import LikelyInvariants.Proofs.Invariant.Key
import LikelyInvariants.Proofs.Invariant.Meaning
import LikelyInvariants.Proofs.Invariant.Permutation
import LikelyInvariants.Proofs.Invariant.Repetition
import LikelyInvariants.Proofs.Keys
import LikelyInvariants.Proofs.Mirror
import LikelyInvariants.Proofs.Partition
import LikelyInvariants.Proofs.Point.Batch
import LikelyInvariants.Proofs.Point.Extension
import LikelyInvariants.Proofs.Point.Falsification
import LikelyInvariants.Proofs.Point.Numbers
import LikelyInvariants.Proofs.Point.Permutation
import LikelyInvariants.Proofs.Point.Soundness
import LikelyInvariants.Proofs.Point.Steps
import LikelyInvariants.Proofs.Point.Taking
import LikelyInvariants.Proofs.Point.Views
import LikelyInvariants.Proofs.Prover.Conversation
import LikelyInvariants.Proofs.Prover.Lifecycle
import LikelyInvariants.Proofs.Redundancy.Discipline
import LikelyInvariants.Proofs.Redundancy.Entailment
import LikelyInvariants.Proofs.Redundancy.Equality
import LikelyInvariants.Proofs.Redundancy.Equation
import LikelyInvariants.Proofs.Redundancy.Flags
import LikelyInvariants.Proofs.Redundancy.Transcript
import LikelyInvariants.Proofs.Refusal
import LikelyInvariants.Proofs.Requests
import LikelyInvariants.Proofs.Session
import LikelyInvariants.Proofs.Siblings
import LikelyInvariants.Proofs.Splitter
import LikelyInvariants.Proofs.Text.Delimited
import LikelyInvariants.Proofs.Text.Symbol
import LikelyInvariants.Proofs.Update
import LikelyInvariants.Proofs.Value
import LikelyInvariants.Proofs.Value.Order
import LikelyInvariants.Prover.Axioms
import LikelyInvariants.Prover.Bridge
import LikelyInvariants.Prover.Command
import LikelyInvariants.Prover.Process
import LikelyInvariants.Prover.Script
import LikelyInvariants.Redundancy
import LikelyInvariants.Redundancy.Candidate
import LikelyInvariants.Redundancy.Equality
import LikelyInvariants.Sample
import LikelyInvariants.Slice
import LikelyInvariants.Splitter
import LikelyInvariants.Text.Dialect
import LikelyInvariants.Text.Duration
import LikelyInvariants.Text.Occurrence
import LikelyInvariants.Text.Quoted
import LikelyInvariants.Value
import LikelyInvariants.Variable
