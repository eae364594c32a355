import SequenceChart.Diagnostic
import SequenceChart.Statement.Basic
import SequenceChart.Token.OfText

namespace SequenceChart

/-- The tokens of a line, and the token that ends it. -/
structure TokenLine where
  body : List Token
  stop : Token
  deriving DecidableEq

namespace TokenLine

/-- The lines of a token list up to the first end of input. Tokens that no such end follows belong
    to no line. -/
def ofTokens : List Token → List TokenLine
  | [] => []
  | token :: rest =>
    match token.kind with
    | .endOfInput => [⟨[], token⟩]
    | .lineBreak => ⟨[], token⟩ :: ofTokens rest
    | _ =>
      match ofTokens rest with
      | [] => []
      | line :: lines => ⟨token :: line.body, line.stop⟩ :: lines

/-- What is wrong with a token that no rule starts with. -/
def unexpected (token : Token) : Diagnostic :=
  if token.kind = .invalid then
    if token.value.toList.head? = some '"' then ⟨token, .unterminatedName⟩
    else ⟨token, .unexpectedCharacter⟩
  else ⟨token, .unexpected⟩

/-- The statement, if nothing of the line is left. -/
def finish (statement : Statement) : List Token → Except Diagnostic Statement
  | [] => .ok statement
  | token :: _ => .error ⟨token, .endExpected⟩

/-- The name at the front of the rest of a line, and what follows it. -/
def takeName (stop : Token) : List Token → Except Diagnostic (Token × List Token)
  | [] => .error ⟨stop, .nameExpected⟩
  | token :: rest =>
    if token.kind = .name && token.value ≠ "" then .ok (token, rest)
    else if token.kind = .invalid then .error (unexpected token)
    else .error ⟨token, .nameExpected⟩

/-- The token at the front of the rest of a line, if it is of a given kind, and what follows it. -/
def take? (kind : TokenKind) : List Token → Option Token × List Token
  | [] => (none, [])
  | token :: rest => if token.kind = kind then (some token, rest) else (none, token :: rest)

/-- The statement of a line that sets the title. -/
def readTitle (keyword : Token) (rest : List Token) : Except Diagnostic Statement :=
  match take? .text rest with
  | (some text, rest) => finish (.setTitle keyword (some text.value)) rest
  | (none, _) => .error ⟨keyword, .titleMissing⟩

/-- The statement of a line that declares a participant. -/
def readParticipant (stop : Token) (rest : List Token) : Except Diagnostic Statement := do
  let (name, rest) ← takeName stop rest
  match take? (.keyword .label) rest with
  | (some keyword, rest) =>
    match take? .text rest with
    | (some label, rest) => finish (.declare name (some label)) rest
    | (none, _) => .error ⟨keyword, .labelMissing⟩
  | (none, rest) => finish (.declare name none) rest

/-- The statement of a signal, after its source and its arrow. -/
def readTarget (stop source arrow : Token) (rest : List Token) : Except Diagnostic Statement := do
  let (target, rest) ← takeName stop rest
  match take? .colon rest with
  | (some _, rest) => finish (.signal source arrow target (take? .text rest).1) (take? .text rest).2
  | (none, []) => .ok (.signal source arrow target none)
  | (none, token :: _) => .error ⟨token, .colonExpected⟩

/-- The statement of a line that starts with a name. -/
def readName (stop : Token) (line : List Token) : Except Diagnostic Statement := do
  let (source, rest) ← takeName stop line
  match rest with
  | [] => .ok (.mention source)
  | token :: rest =>
    if token.kind = .arrow then readTarget stop source token rest
    else .error ⟨token, .arrowExpected⟩

/-- The statement of a line, given its first token. -/
def read (stop first : Token) (rest : List Token) : Except Diagnostic Statement :=
  match first.kind with
  | .keyword .title => readTitle first rest
  | .keyword .participant => readParticipant stop rest
  | .name => readName stop (first :: rest)
  | .keyword .activate | .keyword .deactivate => do
    let (name, rest) ← takeName stop rest
    finish (.activation first name) rest
  | .keyword (.fragment _) => finish (.openFragment first (take? .text rest).1) (take? .text rest).2
  | .keyword .elseOperand | .keyword .andOperand =>
    finish (.nextOperand first (take? .text rest).1) (take? .text rest).2
  | .keyword .close => finish (.closeFragment first) rest
  | _ => .error (unexpected first)

/-- The statement or the problem of a line. A line without tokens has neither. -/
def outcome? (line : TokenLine) : Option (Except Diagnostic Statement) :=
  match line.body with
  | [] => none
  | first :: rest => some (read line.stop first rest)

end TokenLine

/-- The statements of a text and the problems of its other lines, each in the order of lines. -/
structure Script where
  statements : List Statement
  problems : List Diagnostic
  deriving DecidableEq

/-- Why a token list cannot be read at all. -/
inductive ScriptError where
  | noEnd
  | emptyToken
  deriving DecidableEq

/-- The words of the complaint. -/
def ScriptError.message : ScriptError → String
  | noEnd => "token list must end with an EOF token"
  | emptyToken => "string index out of range"

namespace Script

/-- The statements and the problems among outcomes. -/
def ofOutcomes : List (Except Diagnostic Statement) → Script
  | [] => ⟨[], []⟩
  | .ok statement :: rest =>
    let script := ofOutcomes rest
    { script with statements := statement :: script.statements }
  | .error problem :: rest =>
    let script := ofOutcomes rest
    { script with problems := problem :: script.problems }

/-- Whether a problem is about an unknown character that its token does not have. -/
def lacksCharacter (diagnostic : Diagnostic) : Bool :=
  diagnostic.problem = .unexpectedCharacter && diagnostic.token.value = ""

/-- The statements and problems of a token list, which must end with the end of input. -/
def ofTokens (tokens : List Token) : Except ScriptError Script :=
  if (tokens.getLast?.map Token.kind) = some .endOfInput then
    let script := ofOutcomes ((TokenLine.ofTokens tokens).filterMap TokenLine.outcome?)
    if script.problems.any lacksCharacter then .error .emptyToken else .ok script
  else .error .noEnd

/-- The statements and problems of a text. -/
def ofText (text : String) : Except ScriptError Script :=
  ofTokens (Token.ofText text)

end Script

end SequenceChart
