import FieldBinder.Directive.Check
import FieldBinder.Generation
import FieldBinder.Sink.Memory
import FieldBinder.Proofs.Attempts
import FieldBinder.Proofs.Config.Settings
import FieldBinder.Proofs.Field.Groups
import FieldBinder.Proofs.Field.TypeText
import FieldBinder.Proofs.Field.Bounds
import FieldBinder.Proofs.Field.Sites
import FieldBinder.Proofs.FileTree.FilePath
import FieldBinder.Proofs.FileTree.Locations
import FieldBinder.Proofs.FileTree.Operations
import FieldBinder.Proofs.FileTree.Below
import FieldBinder.Proofs.FileTree.Descent
import FieldBinder.Proofs.FileTree.Walk
import FieldBinder.Proofs.Crate.Base
import FieldBinder.Proofs.Crate.Built
import FieldBinder.Proofs.Crate.Imports
import FieldBinder.Proofs.Crate.UseOrder
import FieldBinder.Proofs.Crate.UseLeaves
import FieldBinder.Proofs.Crate.RelativePaths
import FieldBinder.Proofs.Crate.Blocks
import FieldBinder.Proofs.Crate.Implementors
import FieldBinder.Proofs.Crate.Files
import FieldBinder.Proofs.Crate.Names
import FieldBinder.Proofs.Crate.Relocation
import FieldBinder.Proofs.Crate.Load
import FieldBinder.Proofs.Crate.Reload
import FieldBinder.Proofs.Crate.Globs
import FieldBinder.Proofs.Crate.Linking
import FieldBinder.Proofs.Crate.Spelling
import FieldBinder.Proofs.Crate.Scopes
import FieldBinder.Proofs.Crate.Chains
import FieldBinder.Proofs.Crate.Canonical
import FieldBinder.Proofs.Crate.Reexports
import FieldBinder.Proofs.Crate.Registration
import FieldBinder.Proofs.Crate.Layout
import FieldBinder.Proofs.Directive.Check
import FieldBinder.Proofs.Directive.Extraction
import FieldBinder.Proofs.Directive.Names
import FieldBinder.Proofs.Directive.WrittenPaths
import FieldBinder.Proofs.Directive.Spellings
import FieldBinder.Proofs.Grammar.Ensures
import FieldBinder.Proofs.Grammar.Sound
import FieldBinder.Proofs.Grammar.Types
import FieldBinder.Proofs.Grammar.Expressions
import FieldBinder.Proofs.Grammar.Items
import FieldBinder.Proofs.Grammar.Takes
import FieldBinder.Proofs.Grammar.Reading
import FieldBinder.Proofs.Grammar.MetaItems
import FieldBinder.Proofs.Grammar.Arguments
import FieldBinder.Proofs.Grammar.RoundTrip
import FieldBinder.Proofs.Name.Display
import FieldBinder.Proofs.Round.Binding
import FieldBinder.Proofs.Round.Collision
import FieldBinder.Proofs.Round.Outcome
import FieldBinder.Proofs.Round.Run
import FieldBinder.Proofs.Round.Lines
import FieldBinder.Proofs.Round.Locality
import FieldBinder.Proofs.Round.Nesting
import FieldBinder.Proofs.Round.Paths
import FieldBinder.Proofs.Sink.Memory
import FieldBinder.Proofs.Sink.Rollback
import FieldBinder.Proofs.Sink.Commit
import FieldBinder.Proofs.Sink.Agreement
import FieldBinder.Proofs.Sink.Minimal
import FieldBinder.Proofs.Source.Quoted
import FieldBinder.Proofs.Source.Name
import FieldBinder.Proofs.Source.Literal
import FieldBinder.Proofs.Source.Literal.Number
import FieldBinder.Proofs.Source.Literal.Pointed
import FieldBinder.Proofs.Source.Literal.Strings
import FieldBinder.Proofs.Source.Lexical
import FieldBinder.Proofs.Source.TypeText
import FieldBinder.Proofs.Source.Scanning
import FieldBinder.Proofs.Source.Structural
import FieldBinder.Proofs.Text.AsciiName
import FieldBinder.Proofs.Text.Line
import FieldBinder.Proofs.Text.SnakeCase
import FieldBinder.Proofs.Generation
