import SequenceChart.Token.Lexeme

namespace SequenceChart.Token

/-- Whether a line ends at a character that the given ones follow: at a line feed, or at a
    carriage return that no line feed follows. -/
def breaksLine (c : Char) (rest : List Char) : Bool :=
  c = '\n' || (c = '\r' && rest.head? ≠ some '\n')

/-- The first line of a text and the lines after it. A carriage return in front of a line feed
    belongs to its line. -/
def splitLines : List Char → List Char × List (List Char)
  | [] => ([], [])
  | c :: rest =>
    let split := splitLines rest
    if breaksLine c rest then ([], split.1 :: split.2) else (c :: split.1, split.2)

/-- The tokens among lexemes, placed on a line that starts at an offset. The position counts the
    characters in front of the lexemes. -/
def place (line start : Nat) : Nat → List Lexeme → List Token
  | _, [] => []
  | position, .skipped source :: rest => place line start (position + source.length) rest
  | position, .token kind value source :: rest =>
    { kind, value := String.ofList value, line, column := position + 1, offset := start + position
      length := source.length } :: place line start (position + source.length) rest

/-- The tokens of one line. -/
def ofLine (line start : Nat) (source : List Char) : List Token :=
  place line start 0 (Lexeme.ofLine [] source)

/-- The token at the end of a line. -/
def ending (kind : TokenKind) (value : String) (line start : Nat) (source : List Char)
    (length : Nat) : Token where
  kind := kind
  value := value
  line := line
  column := source.length + 1
  offset := start + source.length
  length := length

/-- The tokens of a line and of those after it. One token stands for each line break, and one for
    the end of the input. -/
def ofLines (line start : Nat) (source : List Char) : List (List Char) → List Token
  | [] => ofLine line start source ++ [ending .endOfInput "" line start source 0]
  | following :: rest =>
    ofLine line start source ++ ending .lineBreak "\n" line start source 1 ::
      ofLines (line + 1) (start + source.length + 1) following rest

/-- The tokens of a text. -/
def ofText (text : String) : List Token :=
  let split := splitLines text.toList
  ofLines 1 0 split.1 split.2

end SequenceChart.Token
