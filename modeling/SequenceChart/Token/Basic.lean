import SequenceChart.Text.Quoted

namespace SequenceChart

/-- The kinds of combined fragments. -/
inductive FragmentKind where
  | loop
  | alt
  | opt
  | par
  | critical
  | breakOut
  deriving DecidableEq

/-- The word that opens a fragment of a kind. -/
def FragmentKind.word : FragmentKind → String
  | loop => "loop"
  | alt => "alt"
  | opt => "opt"
  | par => "par"
  | critical => "critical"
  | breakOut => "break"

/-- Every kind once. -/
def FragmentKind.all : List FragmentKind :=
  [.loop, .alt, .opt, .par, .critical, .breakOut]

/-- The words with a meaning of their own. -/
inductive Keyword where
  | title
  | participant
  | activate
  | deactivate
  | fragment (kind : FragmentKind)
  | elseOperand
  | andOperand
  | close
  | label
  deriving DecidableEq

namespace Keyword

/-- How a keyword is written. -/
def word : Keyword → String
  | title => "title"
  | participant => "participant"
  | activate => "activate"
  | deactivate => "deactivate"
  | fragment kind => kind.word
  | elseOperand => "else"
  | andOperand => "and"
  | close => "end"
  | label => "as"

/-- The keywords that may start a line. -/
def lineKeywords : List Keyword :=
  [title, participant, activate, deactivate] ++ FragmentKind.all.map fragment ++
    [elseOperand, andOperand, close]

/-- The keyword that a word is at the start of a line. -/
def ofWord? (text : String) : Option Keyword :=
  lineKeywords.find? (·.word = text)

/-- Whether the rest of the line after the keyword is free text. -/
def takesText : Keyword → Bool
  | title | fragment _ | elseOperand | andOperand | label => true
  | participant | activate | deactivate | close => false

end Keyword

/-- What a token is. Names and free text carry their own value, the end of the input none. -/
inductive TokenKind where
  | keyword (word : Keyword)
  | name
  | arrow
  | colon
  | text
  | lineBreak
  | invalid
  | endOfInput
  deriving DecidableEq

/-- A piece of a source text with its place. Lines and columns count from one, the offset from
    zero. The length counts the characters that the token covers, quote marks included. Tokens that
    were not read from a text may be placed anywhere, also in front of its start. -/
structure Token where
  kind : TokenKind
  value : String
  line : Int
  column : Int
  offset : Int
  length : Int
  deriving DecidableEq

namespace Token

/-- The column after the last one to underline. -/
def endColumn (token : Token) : Int :=
  token.column + max token.length 1

/-- The token in the words of a message. -/
def describe (token : Token) : String :=
  match token.kind with
  | .endOfInput => "end of input"
  | .lineBreak => "end of line"
  | _ => Text.quoted token.value

end Token

end SequenceChart
