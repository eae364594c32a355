import SequenceChart.Options

namespace SequenceChart

/-- The distances that the user of a drawing may choose. -/
structure Spacing (α : Type) where
  padding : α
  participantGap : α
  rowHeight : α
  deriving DecidableEq

section Distances

variable {α : Type} [∀ n, OfNat α n]

/-- The distances that the options ask for. -/
def Spacing.ofOptions (options : Options α) : Spacing α where
  padding := options.padding.getD 30
  participantGap := options.participantGap.getD 140
  rowHeight := options.rowHeight.getD 40

namespace Distance

/-- The least height of the box of a participant. -/
abbrev boxHeight : α := 40

/-- The least width of the box of a participant. -/
abbrev boxWidth : α := 80

/-- The space on the two sides of a participant's label together. -/
abbrev boxMarginX : α := 32

/-- The space above and below a participant's label together. -/
abbrev boxMarginY : α := 20

/-- The least clearance between neighbouring boxes. -/
abbrev boxClearance : α := 40

/-- The space below the title. -/
abbrev titleGap : α := 16

/-- The space between the boxes and the first row. -/
abbrev headerGap : α := 10

/-- The space between the label of a signal and its arrow. -/
abbrev labelGap : α := 6

/-- The clearance on one side of the label of a signal. -/
abbrev labelPad : α := 12

/-- How far the loop of a signal to its source reaches to the right. -/
abbrev loopWidth : α := 30

/-- How far the loop of a signal to its source reaches down. -/
abbrev loopHeight : α := 20

/-- The room for the loop below the row of its signal. -/
abbrev loopRow : α := 30

/-- The width of an activation. -/
abbrev barWidth : α := 10

/-- The distance between the borders of nested fragments. -/
abbrev fragmentPad : α := 10

/-- The height of the header of a fragment. -/
abbrev fragmentHeader : α := 28

/-- The space on one side of the text of a fragment's header. -/
abbrev tabPad : α := 16

/-- The height of the label of a divider. -/
abbrev dividerHeight : α := 24

/-- The space inside a fragment below its last row. -/
abbrev fragmentBottom : α := 10

/-- The space between the last row and the end of the lifelines. -/
abbrev footerGap : α := 10

end Distance

end Distances

end SequenceChart
