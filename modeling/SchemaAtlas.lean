import SchemaAtlas.Proofs.Wiring.Directive
import SchemaAtlas.Proofs.Watching.Relevance
import SchemaAtlas.Proofs.Watching.ExcludedNames
import SchemaAtlas.Proofs.Query.Flowchart
import SchemaAtlas.Proofs.Document.Types
import SchemaAtlas.Proofs.Document.Entries
import SchemaAtlas.Proofs.Scan.Spelling
import SchemaAtlas.Proofs.Scan.DocumentUris
import SchemaAtlas.Proofs.Crawl.DepthFirst
import SchemaAtlas.Proofs.FilePath.Lexical
import SchemaAtlas.Proofs.Scan.Sharing
import SchemaAtlas.Proofs.Watching.Coverage
import SchemaAtlas.Proofs.Scan.Diagnostics
import SchemaAtlas.Proofs.Scan.OperationTexts
import SchemaAtlas.Proofs.Document.Ranges
import SchemaAtlas.Proofs.FileUri.RoundTrip
import SchemaAtlas.Proofs.Scan.Manifest
import SchemaAtlas.Proofs.Scan.Dependence
import SchemaAtlas.Proofs.Crawl.Agreement
import SchemaAtlas.Proofs.Scan.TypeGraph
import SchemaAtlas.Proofs.Index.Totals
import SchemaAtlas.Proofs.Scan.Documents
import SchemaAtlas.Proofs.Scan.Places
import SchemaAtlas.Proofs.Scan.RootFields
import SchemaAtlas.Proofs.Scan.Declarations
import SchemaAtlas.Proofs.Salvage.Texts
import SchemaAtlas.Proofs.Salvage.Joined
import SchemaAtlas.Proofs.Salvage.Queries
import SchemaAtlas.Proofs.Salvage.Dispatch
import SchemaAtlas.Proofs.Salvage.Selections
import SchemaAtlas.Proofs.Document.Lexing
import SchemaAtlas.Proofs.Scan.Sum
import SchemaAtlas.Proofs.Index.Sum
import SchemaAtlas.Proofs.Scan.Cancellation
import SchemaAtlas.Proofs.Crawl.Reachability
import SchemaAtlas.Main
import SchemaAtlas.Watching.Serving
import SchemaAtlas.Json.Reading
import SchemaAtlas.Json.Form
import SchemaAtlas.Json.Token
import SchemaAtlas.Document.Reading
import SchemaAtlas.Document.TypeRef
import SchemaAtlas.CommandLine.Run
import SchemaAtlas.Digest
import SchemaAtlas.FilePath.Normal
import SchemaAtlas.FileUri.Decode
import SchemaAtlas.Index.Builder
import SchemaAtlas.Index.Store
import SchemaAtlas.Text.LowerCase
import SchemaAtlas.Text.Position
import SchemaAtlas.Query.Operations
import SchemaAtlas.Query.Symbols
import SchemaAtlas.Query.TypeGraph
import SchemaAtlas.Wiring
import SchemaAtlas.Wiring.Recovery
import SchemaAtlas.Index.Json
import SchemaAtlas.Project.Scan
import SchemaAtlas.Proofs.Scan.Schema
import SchemaAtlas.Proofs.Scan.Limit
import SchemaAtlas.Proofs.Server.Lines
import SchemaAtlas.Proofs.Server.Replies
import SchemaAtlas.Proofs.Server.Publishing
import SchemaAtlas.Proofs.CommandLine.Graph
import SchemaAtlas.Proofs.Config.EntrySearch
import SchemaAtlas.Proofs.Crawl.Turns
import SchemaAtlas.Proofs.Index.Retelling
