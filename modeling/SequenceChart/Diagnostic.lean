import SequenceChart.Token.Basic

namespace SequenceChart

/-- What is wrong with a line, or with what its statement asks for. -/
inductive Problem where
  | titleMissing
  | labelMissing
  | nameExpected
  | arrowExpected
  | colonExpected
  | endExpected
  | unexpected
  | unexpectedCharacter
  | unterminatedName
  | notActive (name : String)
  | outsideFragment
  | unmatchedClose
  | unclosedFragment (kind : String)
  | other (message : String)
  deriving DecidableEq

/-- A problem and the token that it is attributed to. -/
structure Diagnostic where
  token : Token
  problem : Problem
  deriving DecidableEq

namespace Diagnostic

/-- The characters that a message about unknown characters names: the first one only. -/
def firstCharacter (token : Token) : String :=
  String.ofList (token.value.toList.take 1)

/-- The words of the problem. Some name the token as it is described. -/
def message (diagnostic : Diagnostic) : String :=
  let found := diagnostic.token.describe
  match diagnostic.problem with
  | .titleMissing => "title requires text"
  | .labelMissing => "expected label after 'as'"
  | .nameExpected => "expected participant name, found " ++ found
  | .arrowExpected => "expected arrow or end of line, found " ++ found
  | .colonExpected => "expected ':' or end of line, found " ++ found
  | .endExpected => "unexpected " ++ found ++ ", expected end of line"
  | .unexpected => "unexpected " ++ found
  | .unexpectedCharacter =>
    "unexpected character " ++ Text.quoted (firstCharacter diagnostic.token)
  | .unterminatedName => "unterminated quoted name"
  | .notActive name => Text.quoted name ++ " is not active"
  | .outsideFragment => "'" ++ diagnostic.token.value ++ "' outside of a fragment"
  | .unmatchedClose => "'end' without matching fragment"
  | .unclosedFragment kind => "unclosed '" ++ kind ++ "' fragment"
  | .other message => message

/-- The message with its place in the source. -/
def text (diagnostic : Diagnostic) : String :=
  "line " ++ toString diagnostic.token.line ++ ", column " ++ toString diagnostic.token.column ++
    ": " ++ diagnostic.message

/-- The order of the source: by line, then by column. -/
def precedes (a b : Diagnostic) : Bool :=
  a.token.line < b.token.line ||
    (a.token.line = b.token.line && a.token.column ≤ b.token.column)

end Diagnostic

end SequenceChart
