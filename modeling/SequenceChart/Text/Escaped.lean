namespace SequenceChart.Text

/-- A character of markup text. The five characters with a meaning of their own become
    references. -/
def escapeChar : Char → List Char
  | '&' => ['&', 'a', 'm', 'p', ';']
  | '<' => ['&', 'l', 't', ';']
  | '>' => ['&', 'g', 't', ';']
  | '"' => ['&', 'q', 'u', 'o', 't', ';']
  | '\'' => ['&', '#', '3', '9', ';']
  | c => [c]

/-- A text as the content of a markup element. -/
def escaped (text : String) : String :=
  String.ofList (text.toList.flatMap escapeChar)

end SequenceChart.Text
