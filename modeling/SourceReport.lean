import SourceReport.CommandLine
import SourceReport.Main
import SourceReport.Proofs.ShownLines
import SourceReport.Proofs.Messages
import SourceReport.Proofs.Elision
import SourceReport.Proofs.Reports
import SourceReport.Proofs.Locations
import SourceReport.Proofs.Borders
import SourceReport.Proofs.Highlights
import SourceReport.Proofs.Reordering
import SourceReport.Proofs.BracketLayout
import SourceReport.Proofs.BracketGutters
import SourceReport.Proofs.BracketRows
import SourceReport.Proofs.BracketSpans
import SourceReport.Proofs.Blocks
import SourceReport.Proofs.Corners
import SourceReport.Proofs.OpenBrackets
import SourceReport.Proofs.Courses
import SourceReport.Proofs.Writes
import SourceReport.Proofs.ClosedRows
import SourceReport.Proofs.Markup
import SourceReport.Proofs.Styling
import SourceReport.Proofs.Independence
import SourceReport.Proofs.Refusals
import SourceReport.Proofs.Enclosures
import SourceReport.Proofs.Repeats
import SourceReport.Proofs.OwnSpans
import SourceReport.Proofs.ElidedLines
import SourceReport.Proofs.MovedCode
import SourceReport.Proofs.Providers
import SourceReport.Proofs.DrawingFaults
import SourceReport.Proofs.CaretRows
import SourceReport.Proofs.HangingMessages
import SourceReport.Proofs.EmptyLabels
import SourceReport.Proofs.RenderCommand
import SourceReport.Proofs.LineTiling
import SourceReport.Proofs.SnippetAnchors
import SourceReport.Proofs.TrailingMessages
import SourceReport.Proofs.RowWidths
import SourceReport.Proofs.TopBrackets
import SourceReport.Proofs.Slices
import SourceReport.Proofs.AnySinks
import SourceReport.Proofs.LimitedSinks
import SourceReport.Proofs.BracketStrokes
import SourceReport.Proofs.BottomBrackets
import SourceReport.Proofs.SortedMarks
import SourceReport.Proofs.TabStops
import SourceReport.Proofs.SettingsFields
import SourceReport.Proofs.SettingsTables
import SourceReport.Proofs.JsonTexts
import SourceReport.Proofs.ShownSettings
