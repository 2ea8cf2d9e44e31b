import DeclCheck.Ascending
import DeclCheck.Check.Analysis
import DeclCheck.Check.Basic
import DeclCheck.Check.Expr
import DeclCheck.Check.Literal
import DeclCheck.Check.Signature
import DeclCheck.Check.Stmt
import DeclCheck.Cli.Arguments
import DeclCheck.Cli.Outcome
import DeclCheck.Config
import DeclCheck.Conformity
import DeclCheck.Diagnostic
import DeclCheck.Dict
import DeclCheck.Disk
import DeclCheck.Format.Codec
import DeclCheck.Format.Datum
import DeclCheck.Format.Grammar
import DeclCheck.Format.Read
import DeclCheck.Format.Tree
import DeclCheck.Format.Write
import DeclCheck.Json.Basic
import DeclCheck.Json.Located
import DeclCheck.Json.Token
import DeclCheck.Lattice
import DeclCheck.Location
import DeclCheck.Main
import DeclCheck.Overloading
import DeclCheck.Problem
import DeclCheck.Proofs.Annotation.Acceptance
import DeclCheck.Proofs.Annotation.Slots
import DeclCheck.Proofs.Annotation.Walk
import DeclCheck.Proofs.Conformity
import DeclCheck.Proofs.Dict
import DeclCheck.Proofs.Growth
import DeclCheck.Proofs.Lattice.History
import DeclCheck.Proofs.Lattice.Insertion
import DeclCheck.Proofs.Lattice.Ladder
import DeclCheck.Proofs.Lattice.Rooted
import DeclCheck.Proofs.Lattice.Walks
import DeclCheck.Proofs.Literal
import DeclCheck.Proofs.Overloading.Choice
import DeclCheck.Proofs.Overloading.History
import DeclCheck.Proofs.Overloading.Persistence
import DeclCheck.Proofs.Passes
import DeclCheck.Proofs.Session
import DeclCheck.Proofs.Steps
import DeclCheck.Proofs.Ty.Equality
import DeclCheck.Proofs.Ty.Resolved
import DeclCheck.Proofs.Typing.Acceptance
import DeclCheck.Proofs.Typing.Rules
import DeclCheck.Proofs.Typing.Soundness
import DeclCheck.Proofs.Walk.Expr
import DeclCheck.Proofs.Walk.Keeps
import DeclCheck.Proofs.Walk.Stmt
import DeclCheck.Proofs.Written
import DeclCheck.Report
import DeclCheck.Resolution
import DeclCheck.Run
import DeclCheck.ScopeArena
import DeclCheck.Scopes
import DeclCheck.SearchPath
import DeclCheck.Session
import DeclCheck.Symbols.Basic
import DeclCheck.Symbols.Functions
import DeclCheck.Symbols.Types
import DeclCheck.Text.EditDistance
import DeclCheck.Text.Lines
import DeclCheck.Text.Ordinal
import DeclCheck.Text.Suggestion
import DeclCheck.Tree.Basic
import DeclCheck.Tree.Decl
import DeclCheck.Tree.Expr
import DeclCheck.Tree.Stmt
import DeclCheck.Ty.Basic
import DeclCheck.Ty.Substitution
import DeclCheck.Proofs.Placeholders.Notes
import DeclCheck.Proofs.Placeholders.Walk
import DeclCheck.Proofs.Placeholders.Acceptance
import DeclCheck.Proofs.Reordering
import DeclCheck.Proofs.Scoping.Rules
import DeclCheck.Proofs.Scoping.Soundness
import DeclCheck.Proofs.Scoping.Acceptance
import DeclCheck.Proofs.Ensures
import DeclCheck.Proofs.Defects.Tables
import DeclCheck.Proofs.Defects.Walk
import DeclCheck.Proofs.Defects.Session
import DeclCheck.Proofs.Overloading.Declared
import DeclCheck.Proofs.Naming.Catalogue
import DeclCheck.Proofs.Naming.Stability
import DeclCheck.Proofs.Naming.Declared
import DeclCheck.Proofs.Locations.Mirrors
import DeclCheck.Proofs.Locations.Session
import DeclCheck.Proofs.Restrictions.Acceptance
import DeclCheck.Proofs.Annotation.Erasure
import DeclCheck.Proofs.Naming.Coherence
import DeclCheck.Proofs.Places.Decisions
import DeclCheck.Proofs.Places.Session
import DeclCheck.Proofs.Json.Documents
import DeclCheck.Proofs.Format.Reading
import DeclCheck.Proofs.Format.Trees
import DeclCheck.Proofs.Format.Units
import DeclCheck.Proofs.Overloading.Matching
import DeclCheck.Proofs.Overloading.Optimality
import DeclCheck.Proofs.Overloading.Repetition
import DeclCheck.Proofs.Overloading.Instances
import DeclCheck.Proofs.Run
import DeclCheck.Proofs.Resolution.Closed
import DeclCheck.Proofs.Lattice.Termination
import DeclCheck.Proofs.Lattice.Order
import DeclCheck.Proofs.Literals.Access
import DeclCheck.Proofs.Text.EditDistance
import DeclCheck.Proofs.Resolution.Signatures
import DeclCheck.Proofs.Overloading.Refusal
import DeclCheck.Proofs.Ascending
import DeclCheck.Proofs.Text.ByteOrder
import DeclCheck.Proofs.Text.Suggestion
import DeclCheck.Proofs.SourceWindow
import DeclCheck.Proofs.ScopeArena
import DeclCheck.Proofs.Lattice.Congruence
import DeclCheck.Proofs.Symbols.Insertions
import DeclCheck.Proofs.Ty.Composition
