import SequenceChart.Diagram.Basic

namespace SequenceChart

/-- The title and its box. -/
structure TitleBox (α : Type) where
  text : String
  x : α
  y : α
  width : α
  height : α
  deriving DecidableEq

/-- The box of a participant, placed by the middle of its upper edge. -/
structure ParticipantBox (α : Type) where
  name : String
  label : String
  x : α
  y : α
  width : α
  height : α
  deriving DecidableEq

/-- The line from the box of a participant down to the end of the diagram. -/
structure Lifeline (α : Type) where
  participant : String
  x : α
  top : α
  bottom : α
  deriving DecidableEq

/-- A signal in its row. The index counts the signals from zero in the order of the source. -/
structure SignalRow (α : Type) where
  index : Nat
  source : String
  target : String
  label : String
  style : LineStyle
  hasHead : Bool
  startX : α
  endX : α
  y : α
  isSelf : Bool
  labelWidth : α
  labelHeight : α
  deriving DecidableEq

/-- The narrow box on a lifeline that shows an activation. -/
structure ActivationBar (α : Type) where
  participant : String
  x : α
  top : α
  bottom : α
  width : α
  deriving DecidableEq

/-- The line above an operand of a fragment, with the guard of the operand. -/
structure Divider (α : Type) where
  y : α
  label : String
  deriving DecidableEq

/-- The box of a fragment. The depth is zero for a fragment in no other one. -/
structure FragmentBox (α : Type) where
  kind : String
  label : String
  x : α
  y : α
  width : α
  height : α
  depth : Nat
  dividers : List (Divider α)
  deriving DecidableEq

/-- A diagram with everything in its place. -/
structure Layout (α : Type) where
  width : α
  height : α
  title : Option (TitleBox α) := none
  participants : List (ParticipantBox α) := []
  lifelines : List (Lifeline α) := []
  signals : List (SignalRow α) := []
  activations : List (ActivationBar α) := []
  fragments : List (FragmentBox α) := []
  deriving DecidableEq

/-- Why a diagram has no layout: it refers to a participant that it does not list. -/
inductive LayoutError where
  | unknownParticipant (name : String)
  deriving DecidableEq

end SequenceChart
