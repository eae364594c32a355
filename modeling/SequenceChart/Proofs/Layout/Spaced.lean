import SequenceChart.Font
import SequenceChart.Proofs.Drawing.Corners
import SequenceChart.Proofs.Layout.Composed

namespace SequenceChart

open Distance

namespace Layout

end Layout

end SequenceChart
