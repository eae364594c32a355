namespace SequenceChart

/-- What the user of a drawing may choose. What is absent has a default. -/
structure Options (α : Type) where
  background : Option String := none
  foreground : Option String := none
  line : Option String := none
  accent : Option String := none
  muted : Option String := none
  surface : Option String := none
  border : Option String := none
  font : Option String := none
  /-- The space around the whole diagram. -/
  padding : Option α := none
  /-- The least distance between the centres of neighbouring participants. -/
  participantGap : Option α := none
  /-- The least height of the row of a signal. -/
  rowHeight : Option α := none
  transparent : Option Bool := none
  /-- The name of a theme, over which the explicit colours are laid. -/
  theme : Option String := none
  /-- How far hand-drawn strokes sway. Strokes are straight if it is not positive. -/
  jitter : Option α := none
  seed : Option Int := none

/-- A text that was given and is not empty. -/
def nonempty? (text : Option String) : Option String :=
  text.filter (· ≠ "")

end SequenceChart
