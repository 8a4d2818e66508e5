import SchemaTypes.CommandLine.Options
import SchemaTypes.CommandLine.Setting
import SchemaTypes.CommandLine.Usage
import SchemaTypes.Console.Color
import SchemaTypes.Declaration.Emitter
import SchemaTypes.Declaration.Layout
import SchemaTypes.Declaration.Sink
import SchemaTypes.Declaration.Statistics
import SchemaTypes.Document.Loading
import SchemaTypes.Document.Location
import SchemaTypes.Files.Fault
import SchemaTypes.Files.Path
import SchemaTypes.Files.Tree
import SchemaTypes.Files.Volume
import SchemaTypes.Generation.Config
import SchemaTypes.Generation.Host
import SchemaTypes.Generation.Journal
import SchemaTypes.Generation.Program
import SchemaTypes.Generation.Run
import SchemaTypes.Json.Reader
import SchemaTypes.Json.Value
import SchemaTypes.Json.Writer
import SchemaTypes.Main
import SchemaTypes.Number.Binary64
import SchemaTypes.Number.Decimal
import SchemaTypes.Number.Digits
import SchemaTypes.Number.Layout
import SchemaTypes.Number.Shortest
import SchemaTypes.Schema.Collection
import SchemaTypes.Schema.Documentation
import SchemaTypes.Schema.Node
import SchemaTypes.Schema.Reference
import SchemaTypes.Schema.Warning
import SchemaTypes.Text.Blank
import SchemaTypes.Text.Join
import SchemaTypes.Text.Split
import SchemaTypes.Text.Utf8
import SchemaTypes.Url.Basic
import SchemaTypes.Url.Host
import SchemaTypes.Url.Percent
import SchemaTypes.Yaml.Cursor
import SchemaTypes.Yaml.Document
import SchemaTypes.Yaml.Node
import SchemaTypes.Yaml.Scalar
import SchemaTypes.Yaml.Token
import SchemaTypes.Yaml.Tokens
import SchemaTypes.Proofs.Lists
import SchemaTypes.Proofs.Emission
import SchemaTypes.Proofs.LineSink
import SchemaTypes.Proofs.Output
import SchemaTypes.Proofs.Denotation
import SchemaTypes.Proofs.Text
import SchemaTypes.Proofs.Reading
import SchemaTypes.Proofs.Findings
import SchemaTypes.Proofs.Skeleton
import SchemaTypes.Proofs.Decoding
import SchemaTypes.Proofs.Tally
import SchemaTypes.Proofs.Succession
import SchemaTypes.Proofs.Blocks
import SchemaTypes.Proofs.Refusal
import SchemaTypes.Proofs.Batches
import SchemaTypes.Proofs.Directories
import SchemaTypes.Proofs.Paths
import SchemaTypes.Proofs.Effects
import SchemaTypes.Proofs.Runs
import SchemaTypes.Proofs.Regeneration
import SchemaTypes.Proofs.Edits
import SchemaTypes.Proofs.Volumes
import SchemaTypes.Proofs.Simulation
import SchemaTypes.Proofs.Refinement
import SchemaTypes.Proofs.Preservation
import SchemaTypes.Proofs.Indifference
import SchemaTypes.Proofs.Octets
import SchemaTypes.Proofs.Numerals
import SchemaTypes.Proofs.JsonText
import SchemaTypes.Proofs.YamlScalars
import SchemaTypes.Proofs.YamlLayout
import SchemaTypes.Proofs.YamlTokens
import SchemaTypes.Proofs.Likeness
import SchemaTypes.Proofs.Formats
import SchemaTypes.Proofs.Literals
import SchemaTypes.Proofs.Comments
import SchemaTypes.Proofs.PhysicalLines
import SchemaTypes.Proofs.Enumerations
import SchemaTypes.Proofs.References
import SchemaTypes.Proofs.LineCalls
import SchemaTypes.Proofs.Nesting
import SchemaTypes.Proofs.Precedence
import SchemaTypes.Proofs.Console
