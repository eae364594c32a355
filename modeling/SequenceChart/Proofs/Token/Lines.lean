import SequenceChart.Token.OfText

namespace SequenceChart.Token

/-- No line ends inside a stretch of a text, given what follows the stretch. A carriage return at
    its end needs to know whether a line feed comes next. -/
def Unbroken : List Char → List Char → Prop
  | [], _ => True
  | c :: rest, after => breaksLine c (rest ++ after) = false ∧ Unbroken rest after

/-- The text after a line: nothing, or a line break and more. -/
def AtLineEnd (after : List Char) : Prop :=
  ∀ c rest, after = c :: rest → breaksLine c rest = true

/-- A text, its first line and the lines after it. Every line is as long as it can be, and one
    character of the text stands between two lines. -/
inductive Lines : List Char → List Char → List (List Char) → Prop where
  | last {line : List Char} (hunbroken : Unbroken line []) : Lines line line []
  | cons {line rest following : List Char} {c : Char} {lines : List (List Char)}
      (hunbroken : Unbroken line (c :: rest)) (hbreak : breaksLine c rest = true)
      (tail : Lines rest following lines) :
      Lines (line ++ c :: rest) line (following :: lines)

theorem unbroken_append (front back after : List Char) :
    Unbroken (front ++ back) after ↔ Unbroken front (back ++ after) ∧ Unbroken back after := by
  induction front with
  | nil => simp [Unbroken]
  | cons c front ih => simp [Unbroken, ih, and_assoc]

theorem atLineEnd_nil : AtLineEnd [] := by
  intro c rest h
  cases h

theorem atLineEnd_cons {c : Char} {rest : List Char} (hbreak : breaksLine c rest = true) :
    AtLineEnd (c :: rest) := by
  intro d tail h
  cases h
  exact hbreak

/-- A line ends at a line feed or at a carriage return, and at no other character. -/
theorem eq_of_breaksLine {c : Char} {rest : List Char} (hbreak : breaksLine c rest = true) :
    c = '\n' ∨ c = '\r' := by
  simp only [breaksLine, Bool.or_eq_true, Bool.and_eq_true, decide_eq_true_eq] at hbreak
  exact hbreak.imp id And.left

/-- Splitting a text finds its lines, whatever the text. -/
theorem splitLines_lines (text : List Char) : Lines text (splitLines text).1 (splitLines text).2 := by
  induction text with
  | nil => exact .last trivial
  | cons c rest ih =>
    unfold splitLines
    cases hbreak : breaksLine c rest with
    | true => exact @Lines.cons [] rest _ c _ trivial hbreak ih
    | false =>
      generalize splitLines rest = split at ih
      obtain ⟨first, lines⟩ := split
      cases ih with
      | last hunbroken => exact .last ⟨by simpa using hbreak, hunbroken⟩
      | @cons _ tail following d lines hunbroken hnext htail =>
        exact @Lines.cons (c :: first) tail following d lines ⟨hbreak, hunbroken⟩ hnext htail

/-- The lines of a text with a line break put after a first part are the lines of both parts,
    unless the first part ends in a carriage return, which would belong to the break. -/
theorem splitLines_append (front back : List Char) (hfront : front.getLast? ≠ some '\r') :
    splitLines (front ++ '\n' :: back) =
      ((splitLines front).1, (splitLines front).2 ++ (splitLines back).1 :: (splitLines back).2) := by
  induction front with
  | nil => simp [splitLines, breaksLine]
  | cons c front ih =>
    have hbreaks : breaksLine c (front ++ '\n' :: back) = breaksLine c front := by
      cases front with
      | nil =>
        have hc : c ≠ '\r' := by simpa using hfront
        simp [breaksLine, hc]
      | cons d front => simp [breaksLine]
    have hrest : front.getLast? ≠ some '\r' := by
      cases front with
      | nil => simp
      | cons d front => simpa using hfront
    simp only [List.cons_append, splitLines, hbreaks, ih hrest]
    split <;> rfl

end SequenceChart.Token
