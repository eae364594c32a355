import SequenceChart.Token.Basic

namespace SequenceChart

/-- What one line says, with the tokens that say it. -/
inductive Statement where
  | setTitle (keyword : Token) (title : Option String)
  | declare (name : Token) (label : Option Token)
  | mention (name : Token)
  | signal (source arrow target : Token) (label : Option Token)
  | activation (keyword name : Token)
  | openFragment (keyword : Token) (label : Option Token)
  | nextOperand (keyword : Token) (label : Option Token)
  | closeFragment (keyword : Token)
  | unknown
  deriving DecidableEq

namespace Statement

/-- The token that problems with the statement are attributed to. -/
def token? : Statement → Option Token
  | setTitle keyword _ => some keyword
  | declare name _ => some name
  | mention name => some name
  | signal source _ _ _ => some source
  | activation keyword _ => some keyword
  | openFragment keyword _ => some keyword
  | nextOperand keyword _ => some keyword
  | closeFragment keyword => some keyword
  | unknown => none

/-- The value of a text that may be absent. -/
def textOf (token : Option Token) : String :=
  (token.map Token.value).getD ""

end Statement

end SequenceChart
