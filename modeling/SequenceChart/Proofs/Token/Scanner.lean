import SequenceChart.Proofs.Token.Lossless

namespace SequenceChart.Scanner

open Lexeme Token Text

/-- Whether a pass reads a token. -/
def startsToken (scanner : Scanner) : Bool :=
  match scanner.rest with
  | [] => false
  | c :: rest => !(breaksLine c rest || isGap c || startsComment c rest)

/-- The state behind a lexeme, whose token is emitted if it has one. -/
def follow (scanner : Scanner) (lexeme : Lexeme) : Scanner where
  place := scanner.place.advance lexeme.source.length
  rest := scanner.rest.drop lexeme.source.length
  tokens := scanner.tokens ++ lexeme.tokensAt scanner.place
  line := scanner.line ++ lexeme.tokensAt scanner.place

/-- The rest of the line that a scanner is on, and the text after it. -/
structure Faces (scanner : Scanner) (line after : List Char) : Prop where
  rest : scanner.rest = line ++ after
  unbroken : Unbroken line after
  ended : AtLineEnd after

section Follow

variable {scanner : Scanner} {line after : List Char}

theorem Faces.follow {lexeme : Lexeme} (hfaces : scanner.Faces (lexeme.source ++ line) after) :
    (scanner.follow lexeme).Faces line after := by
  obtain ⟨hrest, hunbroken, hended⟩ := hfaces
  refine ⟨?_, ((unbroken_append _ _ _).1 hunbroken).2, hended⟩
  rw [Scanner.follow, hrest, List.append_assoc, List.drop_left]

theorem Faces.rest_append {front : List Char} (hfaces : scanner.Faces (front ++ line) after) :
    scanner.rest = front ++ (line ++ after) := by
  rw [hfaces.rest, List.append_assoc]

theorem Faces.unbroken_front {front : List Char} (hfaces : scanner.Faces (front ++ line) after) :
    Unbroken front (line ++ after) :=
  ((unbroken_append _ _ _).1 hfaces.unbroken).1

theorem Faces.skipped {front : List Char} (hfaces : scanner.Faces (front ++ line) after) :
    (scanner.follow (.skipped front)).Faces line after :=
  @Faces.follow _ _ _ (.skipped front) hfaces

theorem Faces.foldl {lexemes : List Lexeme}
    (hfaces : scanner.Faces (lexemes.flatMap Lexeme.source ++ line) after) :
    (lexemes.foldl Scanner.follow scanner).Faces line after := by
  induction lexemes generalizing scanner with
  | nil => exact hfaces
  | cons lexeme lexemes ih =>
    rw [List.flatMap_cons, List.append_assoc] at hfaces
    exact ih hfaces.follow

theorem foldl_follow_place (lexemes : List Lexeme) (scanner : Scanner) :
    (lexemes.foldl follow scanner).place =
      scanner.place.advance (lexemes.flatMap Lexeme.source).length := by
  induction lexemes generalizing scanner with
  | nil => rfl
  | cons lexeme lexemes ih =>
    rw [List.foldl_cons, ih, List.flatMap_cons, List.length_append]
    simp only [follow, Place.advance, Nat.add_assoc]

/-- The tokens of the lexemes are emitted on the current line. -/
theorem foldl_follow_emits (lexemes : List Lexeme) (scanner : Scanner) :
    ∃ emitted, (lexemes.foldl follow scanner).tokens = scanner.tokens ++ emitted ∧
      (lexemes.foldl follow scanner).line = scanner.line ++ emitted ∧
      emitted.map kind = lexemes.filterMap kind? := by
  induction lexemes generalizing scanner with
  | nil => exact ⟨[], by simp⟩
  | cons lexeme lexemes ih =>
    obtain ⟨emitted, htokens, hline, hkinds⟩ := ih (scanner.follow lexeme)
    refine ⟨lexeme.tokensAt scanner.place ++ emitted, ?_, ?_, ?_⟩
    · rw [List.foldl_cons, htokens, follow, List.append_assoc]
    · rw [List.foldl_cons, hline, follow, List.append_assoc]
    · rw [List.map_append, hkinds]
      cases lexeme <;> rfl

theorem foldl_follow_tokens {number begin position : Nat} (lexemes : List Lexeme)
    (hplace : scanner.place = ⟨number, position + 1, begin + position⟩) :
    (lexemes.foldl follow scanner).tokens =
      scanner.tokens ++ Token.place number begin position lexemes := by
  induction lexemes generalizing scanner position with
  | nil => simp [Token.place]
  | cons lexeme lexemes ih =>
    have hnext : (scanner.follow lexeme).place =
        ⟨number, position + lexeme.source.length + 1, begin + (position + lexeme.source.length)⟩ := by
      rw [follow, hplace, Place.advance_mk]
    rw [List.foldl_cons, ih hnext, place_cons, follow, hplace, List.append_assoc]

end Follow

end SequenceChart.Scanner
