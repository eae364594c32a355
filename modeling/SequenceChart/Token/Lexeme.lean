import SequenceChart.Token.Basic
import SequenceChart.Text.Alphanumeric
import SequenceChart.Text.Blank
import SequenceChart.Text.Mark

namespace SequenceChart

/-- A stretch of a line: characters to skip, or the characters of one token and its value. -/
inductive Lexeme where
  | skipped (source : List Char)
  | token (kind : TokenKind) (value : List Char) (source : List Char)
  deriving DecidableEq

namespace Lexeme

open Text

/-- The characters of the line that a lexeme covers. -/
def source : Lexeme → List Char
  | skipped source => source
  | token _ _ source => source

/-- The kind of the token that a lexeme holds, if it holds one. -/
def kind? : Lexeme → Option TokenKind
  | skipped _ => none
  | token kind _ _ => some kind

/-- A character that a name without quote marks may start with. -/
def startsName (c : Char) : Bool :=
  isAlphanumeric c || c = '_' || c = '.'

/-- A character that such a name may go on with: combining marks belong to it too. -/
def continuesName (c : Char) : Bool :=
  startsName c || isMark c

/-- White space between tokens, among which a byte order mark counts. -/
def isGap (c : Char) : Bool :=
  isBlank c || c = '\uFEFF'

/-- Whether a comment starts with a character that the given ones follow. -/
def startsComment (c : Char) (rest : List Char) : Bool :=
  c = '#' || (c = '/' && rest.head? = some '/')

/-- A character that ends a run of characters without meaning. -/
def endsInvalid (c : Char) (rest : List Char) : Bool :=
  isBlank c || startsName c || c = ':' || c = '-' || c = '"' || startsComment c rest

/-- A run of characters without meaning, and what follows it. -/
def splitInvalid : List Char → List Char × List Char
  | [] => ([], [])
  | c :: rest =>
    let split := splitInvalid rest
    if endsInvalid c rest then ([], c :: rest) else (c :: split.1, split.2)

/-- The longest arrow at the start of a text whose first character is a dash, and what follows
    it. The dash itself is not given. -/
def splitArrow : List Char → List Char × List Char
  | '-' :: '>' :: rest => (['-', '-', '>'], rest)
  | '-' :: rest => (['-', '-'], rest)
  | '>' :: rest => (['-', '>'], rest)
  | rest => (['-'], rest)

/-- A character skipped in front of free text. -/
def isMargin (c : Char) : Bool :=
  c = ' ' || c = '\t'

/-- The rest of a line as free text: without the white space at either end, and no token if
    nothing is left. -/
def freeText (rest : List Char) : List Lexeme :=
  let body := rest.dropWhile isMargin
  let text := trimEnd isBlank body
  skipped (rest.takeWhile isMargin) ::
    (if text.isEmpty then [] else [token .text text text]) ++ [skipped (body.drop text.length)]

/-- What a word is. Most keywords count only at the start of a line, and one only after the name
    of a participant. -/
def wordKind (seen : List TokenKind) (word : List Char) : TokenKind :=
  match seen with
  | [] => ((Keyword.ofWord? (String.ofList word)).map TokenKind.keyword).getD .name
  | [.keyword .participant, .name] =>
    if String.ofList word = Keyword.label.word then .keyword .label else .name
  | _ => .name

/-- Whether free text follows a token of this kind. -/
def takesText : TokenKind → Bool
  | .keyword word => word.takesText
  | .colon => true
  | _ => false

/-- A token, and the free text after it if its kind takes some. -/
def followed (kind : TokenKind) (value source rest : List Char) : List Lexeme × List Char :=
  if takesText kind then (token kind value source :: freeText rest, [])
  else ([token kind value source], rest)

/-- The next lexemes of a line and what follows them. The kinds of the tokens before them on the
    line decide what a word is. -/
def next (seen : List TokenKind) (c : Char) (rest : List Char) : List Lexeme × List Char :=
  if isGap c then ([skipped [c]], rest)
  else if startsComment c rest then ([skipped (c :: rest)], [])
  else if c = ':' then followed .colon [c] [c] rest
  else if c = '-' then
    let (arrow, after) := splitArrow rest
    followed .arrow arrow arrow after
  else if c = '"' then
    match rest.dropWhile (· ≠ '"') with
    | [] => ([token .invalid (c :: rest) (c :: rest)], [])
    | quote :: after =>
      let name := rest.takeWhile (· ≠ '"')
      followed .name name (c :: name ++ [quote]) after
  else if startsName c then
    let word := c :: rest.takeWhile continuesName
    followed (wordKind seen word) word word (rest.dropWhile continuesName)
  else
    let (run, after) := splitInvalid rest
    followed .invalid (c :: run) (c :: run) after

/-- A run of characters without meaning and what follows it make up the text. -/
theorem splitInvalid_append (cs : List Char) : (splitInvalid cs).1 ++ (splitInvalid cs).2 = cs := by
  induction cs with
  | nil => rfl
  | cons c rest ih =>
    unfold splitInvalid
    split
    · rfl
    · simp [ih]

/-- An arrow and what follows it make up the text, the dash in front included. -/
theorem splitArrow_append (cs : List Char) :
    (splitArrow cs).1 ++ (splitArrow cs).2 = '-' :: cs := by
  unfold splitArrow
  split <;> simp

/-- What trimming leaves is the start of the text. -/
theorem trimEnd_append_drop (skip : Char → Bool) (cs : List Char) :
    trimEnd skip cs ++ cs.drop (trimEnd skip cs).length = cs := by
  have hstart : (cs.reverse.dropWhile skip).reverse <+: cs.reverse.reverse :=
    List.reverse_prefix.2 (List.dropWhile_suffix skip)
  rw [List.reverse_reverse] at hstart
  exact (List.prefix_iff_eq_append.1 hstart)

/-- Free text covers the rest of the line. -/
theorem freeText_source (rest : List Char) : (freeText rest).flatMap source = rest := by
  have hbody := trimEnd_append_drop isBlank (rest.dropWhile isMargin)
  unfold freeText
  simp only [List.flatMap_cons, List.flatMap_append, source, List.flatMap_nil, List.append_nil]
  split
  · next hempty =>
    rw [List.isEmpty_iff.1 hempty]
    simp
  · simp [source, hbody]

/-- A token with its free text and what follows them make up the text, whatever the kind of the
    token. -/
theorem followed_source (kind : TokenKind) (value covered rest : List Char) :
    (followed kind value covered rest).1.flatMap source ++ (followed kind value covered rest).2 =
      covered ++ rest := by
  unfold followed
  split <;> simp [source, freeText_source]

/-- The next lexemes and what follows them make up the line. -/
theorem next_source (seen : List TokenKind) (c : Char) (rest : List Char) :
    (next seen c rest).1.flatMap source ++ (next seen c rest).2 = c :: rest := by
  unfold next
  split
  · simp [source]
  split
  · simp [source]
  split
  · simp [followed_source]
  split
  · next hdash =>
    rw [followed_source, splitArrow_append, hdash]
  split
  · split
    · simp [source]
    · next quote after hafter =>
      have hall := List.takeWhile_append_dropWhile (p := (· ≠ '"')) (l := rest)
      rw [hafter] at hall
      rw [followed_source, List.append_assoc, List.cons_append, List.singleton_append, hall]
  split
  · simp [followed_source]
  · simp [followed_source, splitInvalid_append]

/-- Free text reads on, and never back. -/
theorem followed_length_le (kind : TokenKind) (value covered rest : List Char) :
    (followed kind value covered rest).2.length ≤ rest.length := by
  unfold followed
  split <;> simp

theorem splitInvalid_length_le (cs : List Char) : (splitInvalid cs).2.length ≤ cs.length := by
  have hlength := congrArg List.length (splitInvalid_append cs)
  simp only [List.length_append] at hlength
  omega

theorem splitArrow_length_le (cs : List Char) : (splitArrow cs).2.length ≤ cs.length := by
  unfold splitArrow
  split
  · simp only [List.length_cons]
    omega
  · simp
  · simp
  · simp

/-- Every step reads at least one character. -/
theorem next_length_le (seen : List TokenKind) (c : Char) (rest : List Char) :
    (next seen c rest).2.length ≤ rest.length := by
  unfold next
  split
  · exact Nat.le_refl _
  split
  · exact Nat.zero_le _
  split
  · exact followed_length_le ..
  split
  · exact Nat.le_trans (followed_length_le ..) (splitArrow_length_le rest)
  split
  · split
    · exact Nat.zero_le _
    · next quote after hafter =>
      have hsuffix := (List.dropWhile_suffix (l := rest) (· ≠ '"')).length_le
      rw [hafter, List.length_cons] at hsuffix
      exact Nat.le_trans (followed_length_le ..) (Nat.le_of_succ_le hsuffix)
  split
  · exact Nat.le_trans (followed_length_le ..) (List.dropWhile_suffix continuesName).length_le
  · exact Nat.le_trans (followed_length_le ..) (splitInvalid_length_le rest)

/-- The lexemes of a line, given the kinds of the tokens already read from it. -/
def ofLine (seen : List TokenKind) : List Char → List Lexeme
  | [] => []
  | c :: rest =>
    (next seen c rest).1 ++
      ofLine (seen ++ (next seen c rest).1.filterMap kind?) (next seen c rest).2
termination_by cs => cs.length
decreasing_by
  exact Nat.lt_succ_of_le (next_length_le seen c rest)

/-- The lexemes of a line make it up. -/
theorem ofLine_source (seen : List TokenKind) (line : List Char) :
    (ofLine seen line).flatMap source = line := by
  fun_induction ofLine with
  | case1 => rfl
  | case2 seen c rest ih => rw [List.flatMap_append, ih, next_source]

end Lexeme

end SequenceChart
