namespace SequenceChart

namespace Label

/-- The first line of a label and the lines after it. A backslash and the letter n ask for a line
    break. -/
def splitBreaks : List Char → List Char × List (List Char)
  | '\\' :: 'n' :: rest =>
    let split := splitBreaks rest
    ([], split.1 :: split.2)
  | c :: rest =>
    let split := splitBreaks rest
    (c :: split.1, split.2)
  | [] => ([], [])

/-- The lines of a label, of which there is at least one. -/
def lines (text : String) : List String :=
  let split := splitBreaks text.toList
  String.ofList split.1 :: split.2.map String.ofList

/-- The header of a fragment: its kind, and its label in brackets if it has one. -/
def header (kind label : String) : String :=
  if label = "" then kind else kind ++ " [" ++ label ++ "]"

/-- The text at the divider above an operand: its guard in brackets if it has one. -/
def divider (guard : String) : String :=
  if guard = "" then "" else "[" ++ guard ++ "]"

end Label

end SequenceChart
