import SequenceChart.Diagram.OfText
import SequenceChart.Drawing.Recorder
import SequenceChart.Svg.Document
import SequenceChart.Proofs.Token.Lossless
import SequenceChart.Proofs.Statement.Joined
import SequenceChart.Proofs.Diagram.WellFormed
import SequenceChart.Proofs.Layout.Nested
import SequenceChart.Proofs.Layout.Stacked
import SequenceChart.Proofs.Layout.Spaced
import SequenceChart.Proofs.Layout.RowHeight
import SequenceChart.Proofs.Layout.Canvas
import SequenceChart.Proofs.Drawing.Rendering
import SequenceChart.Proofs.Drawing.Labels
import SequenceChart.Proofs.Diagram.Activities
import SequenceChart.Proofs.Layout.Activations
import SequenceChart.Proofs.Statement.Written
import SequenceChart.Proofs.Diagram.Recovery
import SequenceChart.Proofs.Diagram.LineBreaks
import SequenceChart.Proofs.Drawing.Success
import SequenceChart.Proofs.Svg.Alike
import SequenceChart.Proofs.Diagram.Aliases
import SequenceChart.Proofs.Diagram.Continued
import SequenceChart.Proofs.Diagram.ReturnFeed
import SequenceChart.Proofs.Diagram.Respaced
import SequenceChart.Proofs.Diagram.Calls
import SequenceChart.Proofs.Diagram.Finished
import SequenceChart.Proofs.Diagram.Insertion
import SequenceChart.Proofs.Layout.Enumerated
import SequenceChart.Proofs.Drawing.Arrows
import SequenceChart.Proofs.Svg.Balanced
import SequenceChart.Proofs.Svg.Swayed
import SequenceChart.Proofs.Layout.Drifted
import SequenceChart.Proofs.Layout.Surrounded
import SequenceChart.Proofs.Drawing.Contained
import SequenceChart.Proofs.Svg.WellFormed
import SequenceChart.Proofs.Layout.Bordered
import SequenceChart.Proofs.Layout.Enclosed
import SequenceChart.Proofs.Layout.Stepped
import SequenceChart.Proofs.Token.Positions
import SequenceChart.Proofs.Drawing.Reaching
import SequenceChart.Proofs.Drawing.Tabs
import SequenceChart.Proofs.Statement.Outcomes
import SequenceChart.Proofs.Statement.Trimmed
import SequenceChart.Proofs.Token.Maximal
import SequenceChart.Proofs.Statement.Offending
import SequenceChart.Proofs.Color.Spelled
import SequenceChart.Proofs.Decimal.Canonical
import SequenceChart.Proofs.Svg.Styled
import SequenceChart.Proofs.Theme.Roles
import SequenceChart.Proofs.Statement.Progress
