import BuildScribe.Context.Bench
import BuildScribe.Main
import BuildScribe.Tree.Edit
import BuildScribe.Proofs.Rendering.Formatting
import BuildScribe.Proofs.Typing.Assignability
import BuildScribe.Proofs.Rendering.SourceMap
import BuildScribe.Proofs.Layout.Opening
import BuildScribe.Proofs.Target.Spelling
import BuildScribe.Proofs.Rendering.Position
import BuildScribe.Proofs.Json.Yield
import BuildScribe.Proofs.Building.Drafting
import BuildScribe.Proofs.Building.Catalogue
import BuildScribe.Proofs.Building.Renderable
import BuildScribe.Proofs.Description.Replay
import BuildScribe.Proofs.Description.Outcome
import BuildScribe.Proofs.Building.Imports
import BuildScribe.Proofs.Description.Sections
import BuildScribe.Proofs.Description.RoundTrip
import BuildScribe.Proofs.Description.Trailing
import BuildScribe.Proofs.Description.Agreement
import BuildScribe.Proofs.Description.Structure
import BuildScribe.Proofs.Description.Misspelled
import BuildScribe.Proofs.Command.Printing
import BuildScribe.Proofs.Command.Lines
import BuildScribe.Proofs.Command.Writing
import BuildScribe.Proofs.Description.Comments
import BuildScribe.Proofs.Description.Declarations
import BuildScribe.Proofs.Building.Moments
import BuildScribe.Proofs.Rendering.Stacking
import BuildScribe.Proofs.Rendering.Metadata
import BuildScribe.Proofs.Rendering.SharedLayout
import BuildScribe.Proofs.Rendering.Index
import BuildScribe.Proofs.Scoping.Lexical
import BuildScribe.Proofs.Context.Lookup
import BuildScribe.Proofs.Context.Benches
import BuildScribe.Proofs.Building.Registration
import BuildScribe.Proofs.Tree.Visiting
import BuildScribe.Proofs.Target.Literals
import BuildScribe.Proofs.Target.References
import BuildScribe.Proofs.Text.Splitting
import BuildScribe.Proofs.Tree.Paths
import BuildScribe.Proofs.Typing.QualifiedNames
import BuildScribe.Proofs.Typing.Registrations
import BuildScribe.Proofs.Typing.Supertypes
import BuildScribe.Proofs.Description.Integers
import BuildScribe.Proofs.Rendering.CommentLines
import BuildScribe.Proofs.Tree.Rewriting
import BuildScribe.Proofs.Rendering.Balance
import BuildScribe.Proofs.Layout.Ledger
