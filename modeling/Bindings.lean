import Bindings.Codec.Options
import Bindings.Compilation
import Bindings.Proofs.Reference
import Bindings.Proofs.ReferenceGraph
import Bindings.Proofs.Universe
import Bindings.Proofs.Walk.Coverage
import Bindings.Proofs.Resolution
import Bindings.Proofs.Generation
import Bindings.Proofs.Acceptance
import Bindings.Proofs.WellFormed
import Bindings.Proofs.Walk.Embedding
import Bindings.Proofs.Renaming
import Bindings.Proofs.Artifact.Renaming
import Bindings.Proofs.Artifact.Texture
import Bindings.Proofs.Text.OneLine
import Bindings.Proofs.Artifact.DeclaredNames
import Bindings.Proofs.Text.Lexeme
import Bindings.Proofs.Artifact.Comments
import Bindings.Proofs.Artifact.Lexemes
import Bindings.Proofs.Artifact.References
import Bindings.Proofs.Invariance
import Bindings.Proofs.Bare
import Bindings.Proofs.Text.Condensed
import Bindings.Proofs.Artifact.Condensed
import Bindings.Proofs.Documentation
import Bindings.Proofs.RootOrder
import Bindings.Proofs.Artifact.PropertyKey
import Bindings.Proofs.Json.Reading
import Bindings.Proofs.Json.Nesting
import Bindings.Proofs.Json.Decoder
import Bindings.Proofs.Codec.TypeRef
import Bindings.Proofs.Json.Record
import Bindings.Proofs.Codec.Description
import Bindings.Proofs.Codec.RoundTrip
import Bindings.Proofs.Text.Tree
import Bindings.Proofs.Artifact.Outline
import Bindings.Proofs.Artifact.ObjectTypes
import Bindings.Proofs.Artifact.Statements
import Bindings.Proofs.Artifact.Precedence
import Bindings.Proofs.Artifact.Keys
import Bindings.Proofs.Scope
import Bindings.Proofs.Collision
import Bindings.Proofs.ShapeRules
import Bindings.Proofs.Native.Lexer
import Bindings.Proofs.Native.Reader
import Bindings.Proofs.Native.TypeRow
import Bindings.Proofs.Native.Spelling
import Bindings.Proofs.Native.TypeParts
import Bindings.Proofs.Native.Exposure
import Bindings.Proofs.Native.Collection
import Bindings.Proofs.Text.Word
import Bindings.Proofs.Artifact.Words
import Bindings.Proofs.Artifact.BuiltinNames
import Bindings.Proofs.Duplicate
import Bindings.Proofs.Artifact.TypeShape
import Bindings.Proofs.Text.Assignment
import Bindings.Proofs.Artifact.ExposedNames
import Bindings.Proofs.Artifact.Assignments
import Bindings.Proofs.Artifact.Circularity
import Bindings.Proofs.Native.Respelling
import Bindings.Proofs.Native.UserPaths
import Bindings.Proofs.Artifact.ObjectLayout
import Bindings.Proofs.Artifact.Congruence
import Bindings.Proofs.Artifact.OptionScope
import Bindings.Proofs.FieldCase
import Bindings.Proofs.Native.Accounting
import Bindings.Proofs.Native.Skipping
import Bindings.Proofs.Native.Clause.Sequence
import Bindings.Proofs.CanonicalCase
import Bindings.Proofs.Text.Lines
import Bindings.Proofs.Native.Documentation
import Bindings.Proofs.Walk.Descent
import Bindings.Proofs.Table
