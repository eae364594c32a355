import SequenceChart.Statement.OfTokens

namespace SequenceChart

/-- A token that ends a line. -/
def Token.EndsLine (token : Token) : Prop :=
  token.kind = .lineBreak ∨ token.kind = .endOfInput

instance : DecidablePred Token.EndsLine := fun token =>
  inferInstanceAs (Decidable (token.kind = .lineBreak ∨ token.kind = .endOfInput))

/-- A reader somewhere in a token list: the tokens from its position on, and what the lines before it
    made. -/
structure Reader where
  rest : List Token
  statements : List Statement
  problems : List Diagnostic

namespace Reader

def start (tokens : List Token) : Reader := ⟨tokens, [], []⟩

/-- Why a rule halts: a problem with the line, or a lookup that finds no token or no character. -/
inductive Halt where
  | problem (diagnostic : Diagnostic)
  | noToken
  | noCharacter

/-- A rule reads on from a position. What it has read stays read when it halts. -/
abbrev Rule := EStateM Halt (List Token)

/-- The token at the position. -/
def current : Rule Token := fun
  | [] => .error .noToken []
  | token :: rest => .ok token (token :: rest)

/-- Reads a token, unless it is the end of the input. -/
def advance : Rule Token := fun
  | [] => .error .noToken []
  | token :: rest => .ok token (if token.kind = .endOfInput then token :: rest else rest)

/-- Reads a token if it is of a given kind. -/
def accept (kind : TokenKind) : Rule (Option Token) := do
  let token ← current
  if token.kind = kind then some <$> advance else return none

/-- Halts at a token that no rule expects. Its first character may be asked for. -/
def refuse {α : Type} (token : Token) : Rule α :=
  let problem := TokenLine.unexpected token
  throw (if Script.lacksCharacter problem then .noCharacter else .problem problem)

/-- Reads a name. -/
def expectName : Rule Token := do
  let token ← current
  if token.kind = .name && token.value ≠ "" then advance
  else if token.kind = .invalid then refuse token
  else throw (.problem ⟨token, .nameExpected⟩)

/-- Makes a statement of a line of which nothing is left. -/
def finish (statement : Statement) : Rule Statement := do
  let token ← current
  if token.EndsLine then return statement
  else throw (.problem ⟨token, .endExpected⟩)

/-- Makes a statement of a line that may end in a text. -/
def finishText (make : Option Token → Statement) : Rule Statement := do
  let label ← accept .text
  finish (make label)

/-- A line that sets the title. -/
def titleLine : Rule Statement := do
  let keyword ← advance
  match ← accept .text with
  | some text => finish (.setTitle keyword (some text.value))
  | none => throw (.problem ⟨keyword, .titleMissing⟩)

/-- A line that declares a participant. -/
def participantLine : Rule Statement := do
  let _ ← advance
  let name ← expectName
  match ← accept (.keyword .label) with
  | some keyword =>
    match ← accept .text with
    | some label => finish (.declare name (some label))
    | none => throw (.problem ⟨keyword, .labelMissing⟩)
  | none => finish (.declare name none)

/-- The end of a signal, behind its arrow. -/
def targetEnd (source arrow : Token) : Rule Statement := do
  let target ← expectName
  match ← accept .colon with
  | some _ => finishText (.signal source arrow target)
  | none =>
    let token ← current
    if token.EndsLine then finish (.signal source arrow target none)
    else throw (.problem ⟨token, .colonExpected⟩)

/-- A line that starts with a name. -/
def nameLine : Rule Statement := do
  let source ← expectName
  let token ← current
  if token.EndsLine then return .mention source
  else
    match ← accept .arrow with
    | some arrow => targetEnd source arrow
    | none => throw (.problem ⟨token, .arrowExpected⟩)

/-- A line that starts or ends an activation. -/
def activationLine : Rule Statement := do
  let keyword ← advance
  let name ← expectName
  finish (.activation keyword name)

/-- A line of a keyword and perhaps a text. -/
def labelLine (make : Token → Option Token → Statement) : Rule Statement := do
  let keyword ← advance
  finishText (make keyword)

/-- A line that closes a fragment. -/
def closeLine : Rule Statement := do
  let keyword ← advance
  finish (.closeFragment keyword)

/-- The rule of a line, by its first token. -/
def parseLine : Rule Statement := do
  let token ← current
  match token.kind with
  | .keyword .title => titleLine
  | .keyword .participant => participantLine
  | .name => nameLine
  | .keyword .activate | .keyword .deactivate => activationLine
  | .keyword (.fragment _) => labelLine .openFragment
  | .keyword .elseOperand | .keyword .andOperand => labelLine .nextOperand
  | .keyword .close => closeLine
  | _ => refuse token

/-- Reads up to the token that ends the line. -/
def skipToLineEnd : Rule Unit
  | [] => .error .noToken []
  | token :: rest => if token.EndsLine then .ok () (token :: rest) else skipToLineEnd rest

/-- One pass of the loop, which goes on up to the end of the input. A problem is recorded, and the
    rest of its line skipped. -/
def pass (reader : Reader) : Except Halt Reader :=
  match reader.rest with
  | [] => .error .noToken
  | token :: rest =>
    if token.kind = .endOfInput then .ok reader
    else if token.kind = .lineBreak then .ok { reader with rest }
    else
      match parseLine reader.rest with
      | .ok statement rest =>
        .ok { reader with rest, statements := reader.statements ++ [statement] }
      | .error (.problem problem) rest =>
        match skipToLineEnd rest with
        | .ok _ rest => .ok { reader with rest, problems := reader.problems ++ [problem] }
        | .error halt _ => .error halt
      | .error halt _ => .error halt

end Reader

end SequenceChart
