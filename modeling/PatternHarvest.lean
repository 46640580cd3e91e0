import PatternHarvest.Table
import PatternHarvest.Normal
import PatternHarvest.Declaration
import PatternHarvest.Java.Literal
import PatternHarvest.Java.Parser
import PatternHarvest.Java.Lowering
import PatternHarvest.Report.Json
import PatternHarvest.Report.Json.Reader
import PatternHarvest.Report.Format
import PatternHarvest.Files.Walk
import PatternHarvest.Text.Utf8
import PatternHarvest.Grammar.Repair
import PatternHarvest.Harvest
import PatternHarvest.CommandLine.Program
import PatternHarvest.Files.Building
import PatternHarvest.Main
import PatternHarvest.Proofs.Classification
import PatternHarvest.Proofs.Runs
import PatternHarvest.Proofs.Rescan
import PatternHarvest.Proofs.Literals
import PatternHarvest.Proofs.Preorder
import PatternHarvest.Proofs.Sums
import PatternHarvest.Proofs.Dependence
import PatternHarvest.Proofs.Slicing
import PatternHarvest.Proofs.Declarators
import PatternHarvest.Proofs.NestingLimit
import PatternHarvest.Proofs.JsonRoundTrip
import PatternHarvest.Proofs.YamlScalars
import PatternHarvest.Proofs.LeafOrder
import PatternHarvest.Proofs.BackslashRuns
import PatternHarvest.Proofs.YamlDocuments
import PatternHarvest.Proofs.Recordings
import PatternHarvest.Proofs.CanonicalDocuments
import PatternHarvest.Proofs.Traversal
import PatternHarvest.Proofs.FirstErrors
import PatternHarvest.Proofs.YamlIndentation
import PatternHarvest.Proofs.Discovery
import PatternHarvest.Proofs.Writing
import PatternHarvest.Proofs.Omission
import PatternHarvest.Proofs.Outcomes
import PatternHarvest.Proofs.LiteralContents
import PatternHarvest.Proofs.Decoding
import PatternHarvest.Proofs.Spellings
import PatternHarvest.Proofs.Comments
