import ActorLtl.Batch
import ActorLtl.Batch.Json
import ActorLtl.Batch.Schedule
import ActorLtl.Batch.Source
import ActorLtl.CommandLine
import ActorLtl.CommandLine.Arguments
import ActorLtl.Config
import ActorLtl.Config.Json
import ActorLtl.Conversion
import ActorLtl.Definition
import ActorLtl.Definition.Json
import ActorLtl.Definition.Limit
import ActorLtl.Engine
import ActorLtl.Engine.Json
import ActorLtl.Engine.Owl
import ActorLtl.Error
import ActorLtl.Expression
import ActorLtl.Expression.Alike
import ActorLtl.Expression.Canonical
import ActorLtl.Expression.Json
import ActorLtl.Expression.Keys
import ActorLtl.Expression.Meaning
import ActorLtl.Expression.Respelling
import ActorLtl.Expression.Turns
import ActorLtl.Expression.Walk
import ActorLtl.Files
import ActorLtl.Formula
import ActorLtl.Formula.Json
import ActorLtl.Formula.Named
import ActorLtl.Formula.Operands
import ActorLtl.Formula.Text
import ActorLtl.Formula.Trace
import ActorLtl.Json
import ActorLtl.Json.Decoder
import ActorLtl.Json.Number
import ActorLtl.Json.Plain
import ActorLtl.Json.Precision
import ActorLtl.Json.Reader
import ActorLtl.Json.Token
import ActorLtl.Json.Writer
import ActorLtl.Main
import ActorLtl.Model
import ActorLtl.Model.Json
import ActorLtl.Operator
import ActorLtl.Operator.Json
import ActorLtl.Operator.Spelling
import ActorLtl.Registry
import ActorLtl.Registry.History
import ActorLtl.Registry.Names
import ActorLtl.Text.Blank
import ActorLtl.Text.Utf8
import ActorLtl.Proofs.Meaning
import ActorLtl.Proofs.Phrase
import ActorLtl.Proofs.Readability
import ActorLtl.Proofs.Assembly
import ActorLtl.Proofs.Calls
import ActorLtl.Proofs.Independence
import ActorLtl.Proofs.Refusal
import ActorLtl.Proofs.Partition
import ActorLtl.Proofs.Noninterference
import ActorLtl.Proofs.Handover
import ActorLtl.Proofs.Interleaving
import ActorLtl.Proofs.Tokens
import ActorLtl.Proofs.Reading
import ActorLtl.Proofs.Encoding
import ActorLtl.Proofs.Depth
import ActorLtl.Proofs.ReadBack
import ActorLtl.Proofs.Growth
import ActorLtl.Proofs.Taking
import ActorLtl.Expression.Renumbering
import ActorLtl.Proofs.Identities
import ActorLtl.Proofs.Loading
import ActorLtl.Proofs.References
import ActorLtl.Proofs.RoundTrip
import ActorLtl.Proofs.Shallow
import ActorLtl.Proofs.Opening
import ActorLtl.Proofs.Automata
import ActorLtl.CommandLine.Course
import ActorLtl.Proofs.History
import ActorLtl.Proofs.Reporting
import ActorLtl.Expression.Chain
import ActorLtl.Proofs.Unambiguity
import ActorLtl.Proofs.TwoPasses
import ActorLtl.Proofs.Height
import ActorLtl.Proofs.Undeclared
import ActorLtl.Proofs.Nameless
import ActorLtl.Proofs.Saving
import ActorLtl.Proofs.Spelling
import ActorLtl.Batch.Allotment
import ActorLtl.Expression.Allotment
import ActorLtl.Proofs.Allotment
import ActorLtl.Proofs.Drawing
import ActorLtl.Proofs.Interchange
import ActorLtl.Proofs.Record
