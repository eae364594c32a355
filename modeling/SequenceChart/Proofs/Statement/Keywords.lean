import SequenceChart.Proofs.Statement.Origins
import SequenceChart.Proofs.Token.Append

namespace SequenceChart

open Lexeme

/-- The kinds of the tokens behind which the rest of a line is free text: colons, and the keywords of
    titles, labels, fragments and their operands. -/
def TokenKind.textOpeners : List TokenKind :=
  [.colon, .keyword .title, .keyword .label] ++ FragmentKind.all.map (.keyword <| .fragment ·) ++
    [.keyword .elseOperand, .keyword .andOperand]

namespace Token

/-- Whether a token is a word of a text that stands there without quote marks. -/
def IsWord (text : List Char) (token : Token) : Prop :=
  isWord (token.slice text) = true

/-- Keywords and free text stand on a line where they belong, and nowhere else: the keywords that
    start a line at its start, the keyword of a label behind the name of a participant, and free text
    at the end of the line behind a token that opens it. -/
structure InPlace (text : List Char) (line : List Token) : Prop where
  leading : ∀ before token after, line = before ++ token :: after → ∀ keyword ∈ Keyword.lineKeywords,
    (token.kind = .keyword keyword ↔
      before = [] ∧ token.IsWord text ∧ token.value = keyword.word)
  label : ∀ before token after, line = before ++ token :: after →
    (token.kind = .keyword .label ↔ before.map kind = [.keyword .participant, .name] ∧
      token.IsWord text ∧ token.value = Keyword.label.word)
  opened : ∀ before token after, line = before ++ token :: after → token.kind = .text →
    ∃ earlier opener, before = earlier ++ [opener] ∧ opener.kind ∈ TokenKind.textOpeners
  opens : ∀ before token after, line = before ++ token :: after →
    token.kind ∈ TokenKind.textOpeners → after = [] ∨ ∃ text, after = [text] ∧ text.kind = .text

end Token

theorem takesText_iff {kind : TokenKind} :
    takesText kind = true ↔ kind ∈ TokenKind.textOpeners := by
  cases kind with
  | keyword word =>
    cases word with
    | fragment kind => cases kind <;> decide
    | _ => decide
  | _ => decide

/-- No keyword stands behind a token that takes free text. -/
theorem Keyword.takesText_of_context {keyword : Keyword} {earlier : List TokenKind} {kind : TokenKind}
    (hcontext : keyword.context = earlier ++ [kind]) : Lexeme.takesText kind = false := by
  have hlast : keyword.context.getLast? = some kind := by rw [hcontext, List.getLast?_concat]
  cases keyword with
  | label =>
    cases hlast
    rfl
  | _ => cases hlast

namespace Lexeme

variable {seen : List TokenKind} {kind : TokenKind} {value covered rest : List Char}

/-- What is read from the characters of a word is the word itself, unless it is free text. -/
theorem Reads.of_isWord (hreads : Reads seen (.token kind value covered) rest) (hkind : kind ≠ .text)
    (hword : isWord covered = true) : kind = wordKind seen covered ∧ value = covered := by
  have hquote (body : List Char) : isWord ('"' :: body) = false := by
    rw [isWord, show startsName '"' = false by decide +kernel, Bool.false_and]
  cases hreads with
  | colon => exact absurd hword (by decide +kernel)
  | arrow harrow =>
    have hall : ∀ arrow ∈ arrows, isWord arrow = false := by decide +kernel
    rw [hall _ harrow] at hword
    cases hword
  | quoted hname =>
    rw [List.cons_append, hquote] at hword
    cases hword
  | unterminated hbody hend =>
    rw [hquote] at hword
    cases hword
  | word hstart hbody hend => exact ⟨rfl, rfl⟩
  | invalid hne hrun hend =>
    obtain ⟨c, body, rfl⟩ := List.exists_cons_of_ne_nil hne
    have hc := hrun [] c body rfl
    simp_all [isWord, endsInvalid]
  | text hne => exact absurd rfl hkind

theorem Reads.isWord_of_keyword {keyword : Keyword}
    (hreads : Reads seen (.token (.keyword keyword) value covered) rest) :
    isWord covered = true := by
  generalize hkind : TokenKind.keyword keyword = kind at hreads
  cases hreads with
  | word hstart hbody hend =>
    rw [isWord, hstart, Bool.true_and]
    exact List.all_eq_true.2 hbody
  | _ => cases hkind

/-- A token is a keyword exactly if it is a word, written as the keyword, and stands behind what
    belongs in front of the keyword. -/
theorem Reads.kind_eq_keyword_iff {keyword : Keyword}
    (hreads : Reads seen (.token kind value covered) rest)
    (hopened : kind = .text → ∃ earlier last, seen = earlier ++ [last] ∧ takesText last = true) :
    kind = .keyword keyword ↔
      seen = keyword.context ∧ isWord covered = true ∧ String.ofList value = keyword.word := by
  constructor
  · rintro rfl
    have hword := hreads.isWord_of_keyword
    obtain ⟨hkind, rfl⟩ := hreads.of_isWord (by simp) hword
    obtain ⟨hvalue, hseen⟩ := wordKind_eq_keyword_iff.1 hkind.symm
    exact ⟨hseen, hword, hvalue⟩
  · rintro ⟨hseen, hword, hvalue⟩
    -- Free text may read like a keyword, but none belongs behind a token that takes free text.
    have hkind : kind ≠ .text := by
      intro htext
      obtain ⟨earlier, last, hlast, htakes⟩ := hopened htext
      rw [Keyword.takesText_of_context (hseen.symm.trans hlast)] at htakes
      cases htakes
    obtain ⟨rfl, rfl⟩ := hreads.of_isWord hkind hword
    exact wordKind_eq_keyword_iff.2 ⟨hvalue, hseen⟩

end Lexeme

namespace Script

open TokenLine

theorem mem_lines_ofText {text : String} {body : List Token} (hbody : body ∈ lines (Token.ofText text)) :
    ∃ line ∈ TokenLine.ofText text, line.body = body := by
  have hbodies := ofTokens_map_body (exists_end (Token.ofText_getLast?_kind text))
  rw [lines, ← hbodies] at hbody
  exact List.mem_map.1 (List.mem_filter.1 hbody).1

/-- On every line of every text keywords and free text stand where they belong, and nowhere else. -/
theorem lines_inPlace {text : String} {line : List Token} (hline : line ∈ lines (Token.ofText text)) :
    Token.InPlace text.toList line := by
  obtain ⟨whole, hwhole, rfl⟩ := mem_lines_ofText hline
  have hkeyword (before : List Token) (token : Token) (after : List Token)
      (hsplit : whole.body = before ++ token :: after) (keyword : Keyword) :
      token.kind = .keyword keyword ↔ before.map Token.kind = keyword.context ∧
        token.IsWord text.toList ∧ token.value = keyword.word := by
    obtain ⟨front, value, covered, left, back, hreads⟩ := exists_reads hwhole hsplit
    rw [Token.IsWord, hreads.slice_eq, hreads.value_eq]
    refine hreads.reads.kind_eq_keyword_iff fun htext => ?_
    obtain ⟨earlier, opener, rfl, htakes⟩ := hreads.opened htext
    exact ⟨_, _, List.map_append, htakes⟩
  refine ⟨?_, ?_, ?_, ?_⟩
  · intro before token after hsplit keyword hleading
    rw [hkeyword before token after hsplit, Keyword.context_eq_nil_iff.2 hleading, List.map_eq_nil_iff]
  · intro before token after hsplit
    exact hkeyword before token after hsplit .label
  · intro before token after hsplit htext
    obtain ⟨front, value, covered, left, back, hreads⟩ := exists_reads hwhole hsplit
    obtain ⟨earlier, opener, hbefore, htakes⟩ := hreads.opened htext
    exact ⟨earlier, opener, hbefore, takesText_iff.1 htakes⟩
  · intro before token after hsplit hopener
    obtain ⟨front, value, covered, left, back, hreads⟩ := exists_reads hwhole hsplit
    obtain ⟨_, hafter⟩ | ⟨_, found, hafter, hkind, _⟩ := hreads.after_cases (takesText_iff.2 hopener)
    · exact .inl hafter
    · exact .inr ⟨found, hafter, hkind⟩

/-- A participant with the name of a keyword gets a label that is written as its own keyword. -/
theorem lines_inPlace_label :
    let text := "participant title as as"
    let line : List Token := [⟨.keyword .participant, "participant", 1, 1, 0, 11⟩,
      ⟨.name, "title", 1, 13, 12, 5⟩, ⟨.keyword .label, "as", 1, 19, 18, 2⟩, ⟨.text, "as", 1, 22, 21, 2⟩]
    line ∈ lines (Token.ofText text) ∧ Token.InPlace text.toList line := by
  intro text line
  have hline : line ∈ lines (Token.ofText text) := by decide +kernel
  exact ⟨hline, lines_inPlace hline⟩

end Script

end SequenceChart
