namespace SequenceChart

/-- A column of the diagram. Signals refer to it by its name, and the label is displayed. -/
structure Participant where
  name : String
  label : String
  deriving DecidableEq

/-- How the line of a signal is drawn. A style that is neither of the two is drawn solid. -/
inductive LineStyle where
  | solid
  | dashed
  | other (name : String)
  deriving DecidableEq

/-- A message from one participant to another one, or to itself. -/
structure Signal where
  source : String
  target : String
  label : String
  style : LineStyle
  hasHead : Bool
  deriving DecidableEq

/-- Whether a signal returns to its source. -/
def Signal.isSelf (signal : Signal) : Bool :=
  signal.source = signal.target

mutual

/-- What happens in a diagram or in one operand of a fragment, in order. -/
inductive Body where
  | empty
  | signal (message : Signal) (rest : Body)
  | activation (name : String) (starts : Bool) (rest : Body)
  | fragment (kind : String) (operands : Operands) (rest : Body)

/-- The operands of a combined fragment, each with its guard. -/
inductive Operands where
  | none
  | cons (guard : String) (body : Body) (rest : Operands)

end

deriving instance DecidableEq for Body, Operands

/-- One thing that happens. -/
inductive Element where
  | signal (message : Signal)
  | activation (name : String) (starts : Bool)
  | fragment (kind : String) (operands : Operands)
  deriving DecidableEq

/-- The body in which one thing happens in front of the rest. -/
def Element.cons : Element → Body → Body
  | signal message, rest => .signal message rest
  | activation name starts, rest => .activation name starts rest
  | fragment kind operands, rest => .fragment kind operands rest

/-- One operand: a guard and what happens under it. -/
structure Operand where
  guard : String := ""
  body : Body := .empty
  deriving DecidableEq

/-- A sequence diagram. Participants are in the order of their columns. -/
structure Diagram where
  title : Option String := none
  participants : List Participant := []
  content : Operand := {}
  deriving DecidableEq

mutual

/-- The signals of a body, those of its fragments included, in the order of the source. -/
def Body.signals : Body → List Signal
  | .empty => []
  | .signal message rest => message :: rest.signals
  | .activation _ _ rest => rest.signals
  | .fragment _ operands rest => operands.signals ++ rest.signals

/-- The signals of operands, in the order of the source. -/
def Operands.signals : Operands → List Signal
  | .none => []
  | .cons _ body rest => body.signals ++ rest.signals

end

/-- One body after another. -/
def Body.append : Body → Body → Body
  | .empty, after => after
  | .signal message rest, after => .signal message (rest.append after)
  | .activation name starts rest, after => .activation name starts (rest.append after)
  | .fragment kind operands rest, after => .fragment kind operands (rest.append after)

instance : Append Body where
  append := Body.append

/-- A body and one thing that happens after it. -/
def Body.push (body : Body) (element : Element) : Body :=
  body ++ element.cons .empty

/-- An operand after the others. -/
def Operands.push : Operands → String → Body → Operands
  | .none, guard, body => .cons guard body .none
  | .cons first body rest, guard, last => .cons first body (rest.push guard last)

/-- The label of a fragment: the guard of its first operand. -/
def Operands.label : Operands → String
  | .none => ""
  | .cons guard _ _ => guard

namespace Diagram

/-- The first participant with a name. -/
def find? (diagram : Diagram) (name : String) : Option Participant :=
  diagram.participants.find? (·.name = name)

/-- The names of the participants, in the order of their columns. -/
def names (diagram : Diagram) : List String :=
  diagram.participants.map Participant.name

/-- All signals, in the order of the source. -/
def signals (diagram : Diagram) : List Signal :=
  diagram.content.body.signals

end Diagram

end SequenceChart
