import SequenceChart.Token.OfText

namespace SequenceChart

/-- A place in a text. Lines and columns count from one, the offset from zero. -/
structure Place where
  line : Nat
  column : Nat
  offset : Nat

namespace Place

def origin : Place := ⟨1, 1, 0⟩

def advance (place : Place) (length : Nat) : Place :=
  { place with column := place.column + length, offset := place.offset + length }

def nextLine (place : Place) : Place :=
  ⟨place.line + 1, 1, place.offset + 1⟩

/-- The place behind a character that the given ones follow. -/
def after (place : Place) (c : Char) (rest : List Char) : Place :=
  if Token.breaksLine c rest then place.nextLine else place.advance 1

def token (place : Place) (kind : TokenKind) (value : String) (length : Nat) : Token where
  kind := kind
  value := value
  line := place.line
  column := place.column
  offset := place.offset
  length := length

end Place

/-- The arrows, longer ones first. -/
def Lexeme.arrows : List (List Char) :=
  [['-', '-', '>'], ['-', '>'], ['-', '-'], ['-']]

open Lexeme Token Text

/-- A scanner somewhere in a text: its place, the characters that it has not read, the tokens that it
    has emitted, and those of them on the current line. -/
structure Scanner where
  place : Place
  rest : List Char
  tokens : List Token
  line : List Token

namespace Scanner

def start (text : String) : Scanner := ⟨.origin, text.toList, [], []⟩

/-- Reads a character. -/
def advance (scanner : Scanner) : Scanner :=
  match scanner.rest with
  | [] => scanner
  | c :: rest => { scanner with place := scanner.place.after c rest, rest }

/-- The characters from a place on up to the first one at which a condition fails, which looks at the
    place and at all characters from there on. -/
def readWhile (goes : Place → Char → List Char → Bool) : Place → List Char → Place × List Char
  | place, [] => (place, [])
  | place, c :: rest =>
    if goes place c rest then readWhile goes (place.after c rest) rest else (place, c :: rest)

/-- Reads characters as long as a condition holds. -/
def advanceWhile (scanner : Scanner) (goes : Place → Char → List Char → Bool) : Scanner :=
  let (place, rest) := readWhile goes scanner.place scanner.rest
  { scanner with place, rest }

/-- The characters that were read since an earlier state. -/
def since (scanner earlier : Scanner) : List Char :=
  earlier.rest.take (scanner.place.offset - earlier.place.offset)

/-- Emits a token that starts at a place. A line break ends the line. -/
def emit (scanner : Scanner) (kind : TokenKind) (value : List Char) (place : Place) (length : Nat) :
    Scanner :=
  let token := place.token kind (String.ofList value) length
  { scanner with
    tokens := scanner.tokens ++ [token]
    line := if kind = .lineBreak then [] else scanner.line ++ [token] }

/-- Emits a token of the characters that were read since an earlier state. -/
def emitSince (scanner : Scanner) (kind : TokenKind) (earlier : Scanner) : Scanner :=
  scanner.emit kind (scanner.since earlier) earlier.place (scanner.place.offset - earlier.place.offset)

/-- Reads up to the end of the line. -/
def skipLine (scanner : Scanner) : Scanner :=
  scanner.advanceWhile fun _ c rest => !breaksLine c rest

/-- Reads the rest of the line as free text. -/
def scanText (scanner : Scanner) : Scanner :=
  let first := scanner.advanceWhile fun _ c _ => isMargin c
  let last := first.skipLine
  let text := trimEnd isBlank (last.since first)
  if text.isEmpty then last else last.emit .text text first.place text.length

/-- Reads the longest arrow, if there is one. -/
def scanArrow (scanner : Scanner) : Scanner :=
  match arrows.find? (·.isPrefixOf scanner.rest) with
  | some arrow =>
    (arrow.foldl (fun scanner _ => scanner.advance) scanner).emit .arrow arrow scanner.place
      arrow.length
  | none => scanner

/-- Reads a name between quote marks, or the rest of the line if the second one is missing. -/
def scanQuoted (scanner : Scanner) : Scanner :=
  let first := scanner.advance
  let last := first.advanceWhile fun _ c rest => !breaksLine c rest && c ≠ '"'
  if last.rest.head? = some '"' then
    last.advance.emit .name (last.since first) scanner.place
      (last.advance.place.offset - scanner.place.offset)
  else last.emitSince .invalid scanner

/-- Reads a word, and the free text behind it if it is a keyword that takes some. -/
def scanWord (scanner : Scanner) : Scanner :=
  let last := scanner.advanceWhile fun _ c _ => continuesName c
  let kind := wordKind (scanner.line.map kind) (last.since scanner)
  let emitted := last.emitSince kind scanner
  if takesText kind then emitted.scanText else emitted

/-- Whether a run of characters without meaning goes on. A comment ends it only behind its start. -/
def goesOn (first place : Place) (c : Char) (rest : List Char) : Bool :=
  !(isBlank c || startsName c || c = ':' || c = '-' || c = '"' || c = '#') &&
    !(c = '/' && rest.head? = some '/' && first.offset < place.offset)

/-- Reads a run of characters without meaning. -/
def scanInvalid (scanner : Scanner) : Scanner :=
  (scanner.advanceWhile (goesOn scanner.place)).emitSince .invalid scanner

/-- Reads a token, and the free text behind it if it takes some. -/
def scanToken (scanner : Scanner) : Scanner :=
  match scanner.rest.head? with
  | none => scanner
  | some c =>
    if c = ':' then (scanner.advance.emit .colon [':'] scanner.place 1).scanText
    else if c = '-' then scanner.scanArrow
    else if c = '"' then scanner.scanQuoted
    else if startsName c then scanner.scanWord
    else scanner.scanInvalid

/-- One pass of the loop, which goes on as long as characters are left. -/
def pass (scanner : Scanner) : Scanner :=
  match scanner.rest with
  | [] => scanner
  | c :: rest =>
    if breaksLine c rest then (scanner.emit .lineBreak ['\n'] scanner.place 1).advance
    else if isGap c then scanner.advance
    else if startsComment c rest then scanner.skipLine
    else scanner.scanToken

/-- The tokens of a scanner that has read everything. -/
def finish (scanner : Scanner) : List Token :=
  scanner.tokens ++ [scanner.place.token .endOfInput "" 0]

end Scanner

end SequenceChart
