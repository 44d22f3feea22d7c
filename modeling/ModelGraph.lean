import ModelGraph.Main
import ModelGraph.Proofs.Capability.Ledger
import ModelGraph.Proofs.Registry.Index
import ModelGraph.Proofs.Resolution.Entering
import ModelGraph.Proofs.Resolution.Delivery
import ModelGraph.Proofs.Resolution.References
import ModelGraph.Proofs.Resolution.FirstFault
import ModelGraph.Proofs.Written.Grammar
import ModelGraph.Proofs.Written.Erasure
import ModelGraph.Proofs.Written.NormalForm
import ModelGraph.Proofs.Written.Directive
import ModelGraph.Proofs.Written.DefaultValue
import ModelGraph.Proofs.Written.TypeText
import ModelGraph.Proofs.Written.FieldText
import ModelGraph.Proofs.Written.Stages
import ModelGraph.Proofs.Written.RoundTrip
import ModelGraph.Proofs.Problem.Count
import ModelGraph.Proofs.Resolution.Order
import ModelGraph.Proofs.Resolution.Affixes
import ModelGraph.Proofs.Document.Literal
import ModelGraph.Proofs.Document.Row
import ModelGraph.Proofs.Document.Reading
import ModelGraph.Proofs.Document.NormalChunk
import ModelGraph.Proofs.Document.Definition
import ModelGraph.Proofs.Resolution.LiteralText
import ModelGraph.Proofs.Resolution.EnumStrings
import ModelGraph.Proofs.Trivia.Idempotence
import ModelGraph.Proofs.Trivia.Pattern
import ModelGraph.Proofs.Trivia.Stripping
import ModelGraph.Proofs.Resolution.CommentText
import ModelGraph.Proofs.Document.Parting
import ModelGraph.Proofs.Document.Place
import ModelGraph.Proofs.Document.Seam
import ModelGraph.Proofs.Resolution.Branches
import ModelGraph.Proofs.Problem.Unresolved
import ModelGraph.Proofs.Resolution.NeverAttached
import ModelGraph.Proofs.Json.Decoding
import ModelGraph.Proofs.Resolution.MoreParsers
import ModelGraph.Proofs.Resolution.Growth
import ModelGraph.Proofs.Text.ByteOrder
import ModelGraph.Proofs.Naming.Casing
import ModelGraph.Proofs.Naming.TypeName
import ModelGraph.Proofs.Naming.FieldName
import ModelGraph.Proofs.CommandLine.Check
import ModelGraph.Proofs.Capability.Session
import ModelGraph.Proofs.Registry.Consistency
import ModelGraph.Proofs.Resolution.Effects
import ModelGraph.Proofs.Written.Alternatives
import ModelGraph.Proofs.Problem.Filing
import ModelGraph.Proofs.Declaration.DefaultReader
import ModelGraph.Proofs.Document.Alone
import ModelGraph.Proofs.Text.Octets
import ModelGraph.Proofs.Document.ByteReader
import ModelGraph.Proofs.Document.ByteSkip
import ModelGraph.Proofs.Document.ByteChunks
