import ModuleCatalog.Artifact.Decode
import ModuleCatalog.Artifact.Encode
import ModuleCatalog.Artifact.Store
import ModuleCatalog.Artifact.Turns
import ModuleCatalog.Assoc
import ModuleCatalog.Category.Basic
import ModuleCatalog.Category.Parser
import ModuleCatalog.Category.Printer
import ModuleCatalog.CommandLine.Invocation
import ModuleCatalog.CommandLine.Options
import ModuleCatalog.CommandLine.Run
import ModuleCatalog.Config.Basic
import ModuleCatalog.Config.Reader
import ModuleCatalog.Discovery.Pool
import ModuleCatalog.Discovery.SourceFiles
import ModuleCatalog.Discovery.Walk
import ModuleCatalog.Failure
import ModuleCatalog.FileSystem.Basic
import ModuleCatalog.FileSystem.Change
import ModuleCatalog.FileSystem.Difference
import ModuleCatalog.FileSystem.Fault
import ModuleCatalog.FileSystem.Lookup
import ModuleCatalog.FileSystem.Path
import ModuleCatalog.FileSystem.Resolve
import ModuleCatalog.FileSystem.TextFile
import ModuleCatalog.Generation
import ModuleCatalog.Json.Basic
import ModuleCatalog.Json.Display
import ModuleCatalog.Json.Encoding
import ModuleCatalog.Json.Printer
import ModuleCatalog.Json.Reader
import ModuleCatalog.Log.Basic
import ModuleCatalog.Log.Lineage
import ModuleCatalog.Log.Logged
import ModuleCatalog.Log.Setup
import ModuleCatalog.Main
import ModuleCatalog.Manifest.Basic
import ModuleCatalog.Manifest.Build
import ModuleCatalog.Manifest.Lookup
import ModuleCatalog.Number.Binary64
import ModuleCatalog.Number.Decimal
import ModuleCatalog.Number.FloatText
import ModuleCatalog.Number.Shortest
import ModuleCatalog.Proofs.Artifact.Atomicity
import ModuleCatalog.Proofs.Artifact.Canonical
import ModuleCatalog.Proofs.Artifact.Characters
import ModuleCatalog.Proofs.Artifact.Format
import ModuleCatalog.Proofs.Artifact.LineEnds
import ModuleCatalog.Proofs.Artifact.Lines
import ModuleCatalog.Proofs.Artifact.Loading
import ModuleCatalog.Proofs.Artifact.Repeat
import ModuleCatalog.Proofs.Artifact.RoundTrip
import ModuleCatalog.Proofs.Artifact.Search
import ModuleCatalog.Proofs.Artifact.Sharing
import ModuleCatalog.Proofs.Artifact.Turns
import ModuleCatalog.Proofs.Artifact.Writable
import ModuleCatalog.Proofs.Category.Reading
import ModuleCatalog.Proofs.Category.RoundTrip
import ModuleCatalog.Proofs.Category.Spacing
import ModuleCatalog.Proofs.CommandLine.Parsing
import ModuleCatalog.Proofs.CommandLine.Showing
import ModuleCatalog.Proofs.Config.Extension
import ModuleCatalog.Proofs.Config.Reading
import ModuleCatalog.Proofs.Config.Reports
import ModuleCatalog.Proofs.Config.Settings
import ModuleCatalog.Proofs.Discovery.Again
import ModuleCatalog.Proofs.Discovery.Extraction
import ModuleCatalog.Proofs.Discovery.Failures
import ModuleCatalog.Proofs.Discovery.Listing
import ModuleCatalog.Proofs.Discovery.SourceFiles
import ModuleCatalog.Proofs.Discovery.Workers
import ModuleCatalog.Proofs.Fallible
import ModuleCatalog.Proofs.FileSystem.Children
import ModuleCatalog.Proofs.FileSystem.Distinct
import ModuleCatalog.Proofs.FileSystem.Footprint
import ModuleCatalog.Proofs.FileSystem.Growth
import ModuleCatalog.Proofs.FileSystem.LastName
import ModuleCatalog.Proofs.FileSystem.Later
import ModuleCatalog.Proofs.FileSystem.Leading
import ModuleCatalog.Proofs.FileSystem.NulCharacter
import ModuleCatalog.Proofs.FileSystem.Parents
import ModuleCatalog.Proofs.FileSystem.ProperNames
import ModuleCatalog.Proofs.FileSystem.Replacement
import ModuleCatalog.Proofs.FileSystem.Tree
import ModuleCatalog.Proofs.FileSystem.Walk
import ModuleCatalog.Proofs.Generation
import ModuleCatalog.Proofs.Generation.Again
import ModuleCatalog.Proofs.Generation.Failures
import ModuleCatalog.Proofs.Json.Characters
import ModuleCatalog.Proofs.Json.LineEnds
import ModuleCatalog.Proofs.Json.RoundTrip
import ModuleCatalog.Proofs.Json.Token
import ModuleCatalog.Proofs.Log.Delivery
import ModuleCatalog.Proofs.Log.Lineage
import ModuleCatalog.Proofs.Manifest.Buckets
import ModuleCatalog.Proofs.Manifest.Build
import ModuleCatalog.Proofs.Manifest.Isomorphism
import ModuleCatalog.Proofs.Manifest.Names
import ModuleCatalog.Proofs.Manifest.NormalForm
import ModuleCatalog.Proofs.Manifest.Search
import ModuleCatalog.Proofs.Number.Binary64
import ModuleCatalog.Proofs.Service.Generation
import ModuleCatalog.Proofs.Service.Lookup
import ModuleCatalog.Proofs.Service.Response
import ModuleCatalog.Proofs.Service.Target
import ModuleCatalog.Proofs.Source.BlockComment
import ModuleCatalog.Proofs.Source.Characters
import ModuleCatalog.Proofs.Source.ClassLine
import ModuleCatalog.Proofs.Source.ClassPlace
import ModuleCatalog.Proofs.Source.Copy
import ModuleCatalog.Proofs.Source.Declaration
import ModuleCatalog.Proofs.Source.Edits
import ModuleCatalog.Proofs.Source.NamespacePlace
import ModuleCatalog.Proofs.Source.Scan
import ModuleCatalog.Proofs.Source.Soundness
import ModuleCatalog.Proofs.Text.AsRead
import ModuleCatalog.Proofs.Text.Literal
import ModuleCatalog.Proofs.Text.Newline
import ModuleCatalog.Proofs.Text.Order
import ModuleCatalog.Proofs.Text.RawByte
import ModuleCatalog.Proofs.Text.Unicode
import ModuleCatalog.Proofs.Text.Utf8
import ModuleCatalog.Service.Basic
import ModuleCatalog.Service.Order
import ModuleCatalog.Service.Response
import ModuleCatalog.Service.Route
import ModuleCatalog.Service.Target
import ModuleCatalog.Service.Url
import ModuleCatalog.Source.ClassDeclaration
import ModuleCatalog.Source.Declared
import ModuleCatalog.Source.Marker
import ModuleCatalog.Source.Namespace
import ModuleCatalog.Text.Basic
import ModuleCatalog.Text.Blank
import ModuleCatalog.Text.Cased
import ModuleCatalog.Text.Digit
import ModuleCatalog.Text.Lowercase
import ModuleCatalog.Text.Newline
import ModuleCatalog.Text.Order
import ModuleCatalog.Text.Printable
import ModuleCatalog.Text.Quoted
import ModuleCatalog.Text.Range
import ModuleCatalog.Text.RawByte
import ModuleCatalog.Text.Refusal
import ModuleCatalog.Text.Utf8
import ModuleCatalog.Text.Word
import ModuleCatalog.Yaml.Cursor
import ModuleCatalog.Yaml.Node
import ModuleCatalog.Yaml.Problem
import ModuleCatalog.Yaml.Tag
import ModuleCatalog.Yaml.Token.Basic
import ModuleCatalog.Yaml.Token.Lexer
import ModuleCatalog.Yaml.Token.Name
import ModuleCatalog.Yaml.Token.Scalar
import ModuleCatalog.Yaml.Value.Basic
import ModuleCatalog.Yaml.Value.Document
import ModuleCatalog.Yaml.Value.Scalar
import ModuleCatalog.Proofs.Source.NamespacePlace
