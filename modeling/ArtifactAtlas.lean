import ArtifactAtlas.Artifact.Artifacts
import ArtifactAtlas.Artifact.BuildFile
import ArtifactAtlas.Artifact.BuildIndex
import ArtifactAtlas.Artifact.CompilerOutput
import ArtifactAtlas.Artifact.Contract
import ArtifactAtlas.Artifact.Failure
import ArtifactAtlas.Artifact.ImportGraph
import ArtifactAtlas.Artifact.IndexTable
import ArtifactAtlas.Ast
import ArtifactAtlas.BytePath
import ArtifactAtlas.Bytecode
import ArtifactAtlas.CommandLine.Arguments
import ArtifactAtlas.CommandLine.Complaint
import ArtifactAtlas.CommandLine.Invocation
import ArtifactAtlas.CommandLine.Rendering
import ArtifactAtlas.CommandLine.Run
import ArtifactAtlas.CommandLine.Survey
import ArtifactAtlas.Decimal.Binary64
import ArtifactAtlas.Decimal.Shortest
import ArtifactAtlas.FileTree.Access
import ArtifactAtlas.FileTree.Node
import ArtifactAtlas.Json.Document
import ArtifactAtlas.Json.Format
import ArtifactAtlas.Json.MapFormat
import ArtifactAtlas.Json.Printer
import ArtifactAtlas.Json.Record
import ArtifactAtlas.Json.Shape
import ArtifactAtlas.Json.Token
import ArtifactAtlas.Json.Value
import ArtifactAtlas.Main
import ArtifactAtlas.OrderedMap
import ArtifactAtlas.Path
import ArtifactAtlas.Payload.Assembly
import ArtifactAtlas.Payload.Documents
import ArtifactAtlas.Payload.Job
import ArtifactAtlas.Payload.Request
import ArtifactAtlas.Payload.Sanitize
import ArtifactAtlas.Project.Brownie
import ArtifactAtlas.Project.BuildTool
import ArtifactAtlas.Project.Hardhat
import ArtifactAtlas.Project.IncludeSet
import ArtifactAtlas.Project.Load
import ArtifactAtlas.Project.Options
import ArtifactAtlas.Project.Pragma
import ArtifactAtlas.Project.Solidity
import ArtifactAtlas.Project.Truffle
import ArtifactAtlas.Proofs.Artifact.AsciiFiles
import ArtifactAtlas.Proofs.Artifact.Blame
import ArtifactAtlas.Proofs.Artifact.ImportGraph
import ArtifactAtlas.Proofs.Artifact.OutputSources
import ArtifactAtlas.Proofs.Artifact.Places
import ArtifactAtlas.Proofs.Artifact.SourceGroups
import ArtifactAtlas.Proofs.Ast
import ArtifactAtlas.Proofs.Ast.Imports
import ArtifactAtlas.Proofs.Ast.Rewriting
import ArtifactAtlas.Proofs.Bytecode.Linked
import ArtifactAtlas.Proofs.Bytecode.Linking
import ArtifactAtlas.Proofs.Bytecode.Placeholder
import ArtifactAtlas.Proofs.Bytecode.References
import ArtifactAtlas.Proofs.Bytecode.Spans
import ArtifactAtlas.Proofs.Bytecode.Unlinked
import ArtifactAtlas.Proofs.FileTree.Sources
import ArtifactAtlas.Proofs.FileTree.WalkOrder
import ArtifactAtlas.Proofs.FileTree.Walks
import ArtifactAtlas.Proofs.Json.Format
import ArtifactAtlas.Proofs.Json.Record
import ArtifactAtlas.Proofs.Json.Respelling
import ArtifactAtlas.Proofs.Json.RoundTrip
import ArtifactAtlas.Proofs.OrderedMap
import ArtifactAtlas.Proofs.Path
import ArtifactAtlas.Proofs.Path.Bytes
import ArtifactAtlas.Proofs.Path.Course
import ArtifactAtlas.Proofs.Path.Resolved
import ArtifactAtlas.Proofs.Payload.Assembly
import ArtifactAtlas.Proofs.Payload.Documents
import ArtifactAtlas.Proofs.Payload.FileIndices
import ArtifactAtlas.Proofs.Payload.Gaps
import ArtifactAtlas.Proofs.Payload.KeptSources
import ArtifactAtlas.Proofs.Payload.Pool
import ArtifactAtlas.Proofs.Payload.ReadBack
import ArtifactAtlas.Proofs.Payload.Requests
import ArtifactAtlas.Proofs.Payload.Sanitize
import ArtifactAtlas.Proofs.Payload.SanitizedTwice
import ArtifactAtlas.Proofs.Payload.SharedDirectory
import ArtifactAtlas.Proofs.Payload.SourcePaths
import ArtifactAtlas.Proofs.Project.Compilation
import ArtifactAtlas.Proofs.Project.Failures
import ArtifactAtlas.Proofs.Project.IncludeSet
import ArtifactAtlas.Proofs.Project.Portions
import ArtifactAtlas.Proofs.Project.Restriction
import ArtifactAtlas.Proofs.Project.Truffle
import ArtifactAtlas.Proofs.Report.Agreement
import ArtifactAtlas.Proofs.Report.Criteria
import ArtifactAtlas.Proofs.Report.Filtering
import ArtifactAtlas.Proofs.Report.Input
import ArtifactAtlas.Proofs.Report.Merging
import ArtifactAtlas.Proofs.Report.ReadBack
import ArtifactAtlas.Proofs.Report.Records
import ArtifactAtlas.Proofs.Report.SwcId
import ArtifactAtlas.Proofs.SourceMap.Fields
import ArtifactAtlas.Proofs.SourceMap.Reading
import ArtifactAtlas.Proofs.SourceMap.Rehome
import ArtifactAtlas.Proofs.SourceMap.RoundTrip
import ArtifactAtlas.Proofs.SourceMap.Shortest
import ArtifactAtlas.Proofs.SourceText
import ArtifactAtlas.Proofs.SourceText.Spans
import ArtifactAtlas.Proofs.Text.Bytes
import ArtifactAtlas.Proofs.Text.Numeral
import ArtifactAtlas.Proofs.Text.Split
import ArtifactAtlas.Report.Decode
import ArtifactAtlas.Report.Filter
import ArtifactAtlas.Report.Input
import ArtifactAtlas.Report.Issue
import ArtifactAtlas.Report.Layout
import ArtifactAtlas.Report.LineIndex
import ArtifactAtlas.Report.Severity
import ArtifactAtlas.Settings
import ArtifactAtlas.SourceMap.Codec
import ArtifactAtlas.SourceMap.Entry
import ArtifactAtlas.SourceMap.Location
import ArtifactAtlas.SourceMap.Rehome
import ArtifactAtlas.SourceText
import ArtifactAtlas.Text.CharClass
import ArtifactAtlas.Text.Lossy
import ArtifactAtlas.Text.Numeral
import ArtifactAtlas.Text.Printable
import ArtifactAtlas.Text.Quoted
import ArtifactAtlas.Text.Split
import ArtifactAtlas.Text.Style
import ArtifactAtlas.Text.WordChar
import ArtifactAtlas.Toml.Document
import ArtifactAtlas.Toml.Reader
import ArtifactAtlas.Toml.Scalar
import ArtifactAtlas.Toml.Text
import ArtifactAtlas.Toml.Value
