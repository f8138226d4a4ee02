import LineChart.Command.Arguments
import LineChart.Drawing.Pdf
import LineChart.Drawing.Svg
import LineChart.Figure.Building
import LineChart.Main
import LineChart.Proofs.Colour.Digits
import LineChart.Proofs.Command.Description
import LineChart.Proofs.Description.Layout
import LineChart.Proofs.Drawing.Strokes
import LineChart.Proofs.Figure.Accounts
import LineChart.Proofs.Figure.Blocks
import LineChart.Proofs.Figure.Building
import LineChart.Proofs.Figure.Content
import LineChart.Proofs.Figure.Contribution
import LineChart.Proofs.Figure.Coverage
import LineChart.Proofs.Figure.CutColours
import LineChart.Proofs.Figure.GroupLabels
import LineChart.Proofs.Figure.Grouping
import LineChart.Proofs.Figure.MissingKeys
import LineChart.Proofs.Figure.Ranges
import LineChart.Proofs.Figure.Span
import LineChart.Proofs.Figure.Verdict
import LineChart.Proofs.Files.Changes
import LineChart.Proofs.Json.Ascending
import LineChart.Proofs.Json.Reading
import LineChart.Proofs.Json.RoundTrip
import LineChart.Proofs.Json.Scanning
import LineChart.Proofs.Number.Halves
import LineChart.Proofs.Number.Nearest
import LineChart.Proofs.Number.NearestTo
import LineChart.Proofs.Number.Sides
import LineChart.Proofs.Number.Widening
import LineChart.Proofs.Sample.Clock
import LineChart.Proofs.Sample.States
import LineChart.Proofs.Sample.Timings
import LineChart.Proofs.Table.Addresses
import LineChart.Proofs.Table.Batches
import LineChart.Proofs.Table.Conversion
import LineChart.Proofs.Table.Division
import LineChart.Proofs.Table.Filling
import LineChart.Proofs.Table.FilterValues
import LineChart.Proofs.Table.ForeignCells
import LineChart.Proofs.Table.Gathering
import LineChart.Proofs.Table.Integers
import LineChart.Proofs.Table.JsonFilters
import LineChart.Proofs.Table.Plain
import LineChart.Proofs.Table.Quoting
import LineChart.Proofs.Table.Records
import LineChart.Proofs.Table.Rows
import LineChart.Proofs.Table.SortedCells
import LineChart.Proofs.Table.Texts
import LineChart.Proofs.Table.Values
import LineChart.Proofs.Viewer.Frames
import LineChart.Proofs.Viewer.Legend
import LineChart.Proofs.Viewer.Switching
import LineChart.Sample.Writing
import LineChart.Viewer.Window
