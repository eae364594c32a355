namespace SequenceChart

/-- An input that is required and was not given. -/
inductive Missing where
  | source
  | text
  | tokens
  | diagram
  | signal
  | title
  | token
  deriving DecidableEq

namespace Missing

/-- The complaint about a missing input. -/
def message : Missing → String
  | source => "source must be a string, not None"
  | text => "text must be a string, not None"
  | tokens => "tokens must be a list, not None"
  | diagram => "diagram must not be None"
  | signal => "signal must not be None"
  | title => "title must not be None"
  | token => "errors must be attributed to a token"

/-- The input, if it was given. -/
def require {β : Type} (what : Missing) : Option β → Except Missing β
  | some value => .ok value
  | none => .error what

end Missing

end SequenceChart
