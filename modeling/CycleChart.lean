import CycleChart.Batch.Error
import CycleChart.Batch.Outcome
import CycleChart.Batch.Render
import CycleChart.Batch.Run
import CycleChart.Binary.Double
import CycleChart.Binary.Exact
import CycleChart.Binary.Format
import CycleChart.Binary.Logarithm
import CycleChart.Binary.Shortest
import CycleChart.Canvas.Area
import CycleChart.Canvas.Basic
import CycleChart.Canvas.Bounds
import CycleChart.Canvas.Color
import CycleChart.Canvas.Paint
import CycleChart.Canvas.Png
import CycleChart.Chart.Basic
import CycleChart.Chart.Breakdown
import CycleChart.Chart.Summary
import CycleChart.Command.Arguments
import CycleChart.Command.Program
import CycleChart.Drawing.Axis
import CycleChart.Drawing.Item
import CycleChart.Drawing.Labels
import CycleChart.Drawing.Layout
import CycleChart.Drawing.Page
import CycleChart.Drawing.Plot
import CycleChart.Drawing.TextWidth
import CycleChart.Drawing.Ticks
import CycleChart.Figure
import CycleChart.Files.Error
import CycleChart.Files.Host
import CycleChart.Files.Node
import CycleChart.Files.Session
import CycleChart.Files.Tree
import CycleChart.Files.Walk
import CycleChart.Main
import CycleChart.OrderedMap
import CycleChart.Overflow
import CycleChart.Path.Basic
import CycleChart.Path.Chart
import CycleChart.Path.Spelled
import CycleChart.Proofs.Batch.Again
import CycleChart.Proofs.Batch.Alone
import CycleChart.Proofs.Batch.Coverage
import CycleChart.Proofs.Batch.Discovery
import CycleChart.Proofs.Batch.Frame
import CycleChart.Proofs.Batch.Isolation
import CycleChart.Proofs.Batch.Listed
import CycleChart.Proofs.Batch.Outputs
import CycleChart.Proofs.Binary.Enclosure
import CycleChart.Proofs.Binary.Encoding
import CycleChart.Proofs.Binary.Rounding
import CycleChart.Proofs.Canvas.Extent
import CycleChart.Proofs.Drawing.Faithful
import CycleChart.Proofs.Drawing.Shown
import CycleChart.Proofs.Drawing.Slots
import CycleChart.Proofs.Files.Arriving
import CycleChart.Proofs.Files.Growth
import CycleChart.Proofs.Files.Inside
import CycleChart.Proofs.Files.Making
import CycleChart.Proofs.Files.Places
import CycleChart.Proofs.Files.Remaking
import CycleChart.Proofs.Files.Same
import CycleChart.Proofs.Files.Sessions
import CycleChart.Proofs.Json.Counting
import CycleChart.Proofs.Json.Grammar
import CycleChart.Proofs.Json.Members
import CycleChart.Proofs.Json.Passing
import CycleChart.Proofs.Json.Skipping
import CycleChart.Proofs.Json.Strings
import CycleChart.Proofs.Json.Tokens
import CycleChart.Proofs.Json.Values
import CycleChart.Proofs.Path.Parents
import CycleChart.Proofs.Path.Segments
import CycleChart.Proofs.Path.Spelling
import CycleChart.Proofs.Report.Decoding
import CycleChart.Proofs.Report.Given
import CycleChart.Proofs.Report.Strictness
import CycleChart.Proofs.Results
import CycleChart.Proofs.Text.Utf8
import CycleChart.Report.Basic
import CycleChart.Report.Counts
import CycleChart.Report.Number
import CycleChart.Report.Parse
import CycleChart.Report.Reader
import CycleChart.Report.Reason
import CycleChart.Report.Skip
import CycleChart.Report.Token
import CycleChart.Report.Total
import CycleChart.Text.AxisLabel
import CycleChart.Text.Blank
import CycleChart.Text.Grouped
import CycleChart.Text.Quoted
import CycleChart.Text.Terminal
import CycleChart.Text.Unprintable
import CycleChart.Text.Utf8
import CycleChart.Proofs.Report.Labels
import CycleChart.Proofs.Report.Elements
import CycleChart.Proofs.Canvas.Pictures
import CycleChart.Proofs.Files.Writing
import CycleChart.Proofs.Batch.Readiness
import CycleChart.Proofs.Command.Status
import CycleChart.Proofs.Files.Scenes
import CycleChart.Proofs.Batch.Quiet
import CycleChart.Proofs.Batch.Sorting
import CycleChart.Proofs.Command.Arguments
import CycleChart.Proofs.Command.Quiet
import CycleChart.Proofs.Canvas.Content
import CycleChart.Proofs.Canvas.Cropping
import CycleChart.Proofs.Binary.Signed
import CycleChart.Proofs.Binary.Unsigned
import CycleChart.Proofs.Binary.Whole
import CycleChart.Proofs.Drawing.Pixels
import CycleChart.Proofs.Drawing.Descent
import CycleChart.Proofs.Drawing.Marks
import CycleChart.Proofs.Drawing.Rows
import CycleChart.Proofs.Canvas.Recropping
import CycleChart.Proofs.Canvas.Scanning
import CycleChart.Proofs.Text.Grouping
import CycleChart.Proofs.Text.ByteOrder
import CycleChart.Proofs.Chart.Ranking
import CycleChart.Proofs.Path.Naming
import CycleChart.Proofs.Path.Order
import CycleChart.Proofs.Batch.Finding
import CycleChart.Proofs.Text.Places
import CycleChart.Proofs.Text.Thousandths
import CycleChart.Proofs.Text.Reading
import CycleChart.Proofs.Drawing.Readings
import CycleChart.Proofs.Binary.Spacing
import CycleChart.Proofs.Text.WholeLabels
import CycleChart.Proofs.Chart.Totals
import CycleChart.Proofs.Drawing.Regions
import CycleChart.Proofs.Binary.UpTo
import CycleChart.Proofs.Drawing.Sizes
import CycleChart.Proofs.Drawing.Room
import CycleChart.Proofs.Canvas.Bytes
import CycleChart.Proofs.Canvas.Padding
import CycleChart.Proofs.Batch.Rendering
