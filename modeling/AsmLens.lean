import AsmLens.Main
import AsmLens.Proofs.Assembly.FileTable
import AsmLens.Proofs.Listing.Interleaving
import AsmLens.Proofs.Text.Trimming
import AsmLens.Proofs.Assembly.Fragments
import AsmLens.Proofs.Assembly.Classification
import AsmLens.Proofs.Assembly.BodyRun
import AsmLens.Proofs.Assembly.Scanning
import AsmLens.Proofs.Actions
import AsmLens.Proofs.Source.Correlating
import AsmLens.Proofs.Symbol.Learning
import AsmLens.Proofs.Assembly.Covering
import AsmLens.Proofs.Symbol.Surveying
import AsmLens.Proofs.Assembly.Relocating
import AsmLens.Proofs.Ir.Relocating
import AsmLens.Proofs.Relocating
import AsmLens.Proofs.Assembly.Operands
import AsmLens.Proofs.Text.Decimal
import AsmLens.Proofs.Text.Quoting
import AsmLens.Proofs.Listing.Written
import AsmLens.Proofs.Listing.RoundTrip
import AsmLens.Proofs.Assembly.LineByLine
import AsmLens.Proofs.Assembly.Framing
import AsmLens.Proofs.Text.Lines
import AsmLens.Proofs.Text.Cutting
import AsmLens.Proofs.Symbol.Batching
import AsmLens.Proofs.Assembly.Naming
import AsmLens.Proofs.Assembly.PureNaming
import AsmLens.Proofs.Lists
import AsmLens.Proofs.Source.References
import AsmLens.Proofs.Source.Reading
import AsmLens.Proofs.Source.Loading
import AsmLens.Proofs.Listing.SourceLines
import AsmLens.Proofs.Source.Limit
import AsmLens.Proofs.Showing
import AsmLens.Proofs.Json.Strings
import AsmLens.Proofs.Json.Printing
import AsmLens.Proofs.Listing.Encoding
import AsmLens.Proofs.Console
import AsmLens.Proofs.Assembly.Disjoint
import AsmLens.Proofs.Assembly.Uncommenting
import AsmLens.Proofs.Assembly.Renaming
import AsmLens.Proofs.Questions
import AsmLens.Proofs.Endings
import AsmLens.Proofs.Assembly.OwnFile
import AsmLens.Proofs.Symbol.Frugality
import AsmLens.Proofs.Assembly.OnDemand
import AsmLens.Proofs.Assembly.Malformed
import AsmLens.Proofs.Text.Pieces
import AsmLens.Proofs.Path.Normal
import AsmLens.Proofs.Source.Opening
import AsmLens.Proofs.Path.Components
import AsmLens.Proofs.Path.Display
import AsmLens.Proofs.Source.LibraryPath
import AsmLens.Proofs.Ir.Locating
import AsmLens.Proofs.Ir.Symbol
import AsmLens.Proofs.Assembly.FileDirective
import AsmLens.Proofs.Text.Distance
import AsmLens.Proofs.Suggestion
import AsmLens.Proofs.Workspace.Tree
import AsmLens.Proofs.Collecting
import AsmLens.Proofs.Text.Utf8
import AsmLens.Proofs.Json.Fields
import AsmLens.Proofs.Json.Reading
import AsmLens.Proofs.Json.RoundTrip
import AsmLens.Proofs.Workspace.Writing
import AsmLens.Proofs.Settings.Loading
import AsmLens.Proofs.Settings.Reloading
import AsmLens.Proofs.Assembly.CommentStart
