import SequenceChart.Proofs.Statement.Keywords
import SequenceChart.Proofs.Text.Trimmed

namespace SequenceChart

open Text Lexeme

/-- The characters of a text between the end of a token and the start of another one. -/
def Token.between (text : List Char) (token stop : Token) : List Char :=
  (token.behind text).take (stop.offset - (token.offset + token.length)).toNat

/-- What may stand behind a token that opens free text, given what is left of its line. It is nothing
    exactly if white space is left, and otherwise one text: what is left without the spaces and tabs
    in front and without all white space behind. The text has white space of other kinds in front
    exactly if there is some behind these spaces and tabs. -/
structure TokenLine.Trimmed (left : List Char) (after : List Token) : Prop where
  omitted : after = [] ↔ trim isBlank left = []
  found : after ≠ [] → ∃ found, after = [found] ∧ found.kind = .text ∧
    found.value.toList = trimEnd isBlank (left.dropWhile isMargin) ∧
    (found.value.toList = trim isBlank left ↔
      ∀ c ∈ (left.dropWhile isMargin).head?, isBlank c = false)

/-- Leaving spaces and tabs out in front of a text and all white space behind it leaves nothing
    exactly if the text is white space. -/
theorem trimEnd_dropWhile_margin_eq_nil_iff {left : List Char} :
    trimEnd isBlank (left.dropWhile isMargin) = [] ↔ trim isBlank left = [] := by
  rw [← trim_dropWhile fun _ => isBlank_of_isMargin, trimEnd_eq_rdropWhile,
    List.rdropWhile_eq_nil_iff, trim_eq_nil_iff]

namespace TokenLine

theorem Reads.between_eq {text front value covered left back : List Char} {line : TokenLine}
    {before after : List Token} {token : Token}
    (hreads : line.Reads text before token after front value covered left back) :
    token.between text line.stop = left := by
  have hlength : (line.stop.offset - (token.offset + token.length)).toNat = left.length := by
    rw [hreads.stop, hreads.offset, hreads.length]
    omega
  rw [Token.between, hlength, hreads.behind_eq, List.take_left]

/-- Free text is the rest of its line without the white space around it, whatever the text, except
    that only spaces and tabs are left out in front. -/
theorem ofText_trimmed {text : String} {line : TokenLine} (hline : line ∈ ofText text)
    {before after : List Token} {opener : Token} (hsplit : line.body = before ++ opener :: after)
    (hopener : opener.kind ∈ TokenKind.textOpeners) :
    Trimmed (opener.between text.toList line.stop) after := by
  obtain ⟨front, value, covered, left, back, hreads⟩ := exists_reads hline hsplit
  rw [hreads.between_eq]
  obtain ⟨hempty, rfl⟩ | ⟨hfilled, found, rfl, hkind, hvalue⟩ :=
    hreads.after_cases (takesText_iff.2 hopener)
  · exact ⟨by simp [trimEnd_dropWhile_margin_eq_nil_iff.1 hempty], fun hafter => absurd rfl hafter⟩
  · have hleft : trim isBlank left ≠ [] := mt trimEnd_dropWhile_margin_eq_nil_iff.2 hfilled
    refine ⟨by simp [hleft], fun _ => ⟨found, rfl, hkind, hvalue, ?_⟩⟩
    rw [hvalue, ← trim_dropWhile fun _ => isBlank_of_isMargin]
    exact trimEnd_eq_trim_iff hfilled

/-- A label between white space of several kinds. -/
theorem ofText_trimmed_spaces :
    let text := "loop \tall day \u3000"
    let opener : Token := ⟨.keyword (.fragment .loop), "loop", 1, 1, 0, 4⟩
    let label : Token := ⟨.text, "all day", 1, 7, 6, 7⟩
    let line : TokenLine := ⟨[opener, label], ⟨.endOfInput, "", 1, 16, 15, 0⟩⟩
    line ∈ ofText text ∧ line.body = [] ++ opener :: [label] ∧
      opener.kind ∈ TokenKind.textOpeners ∧ Trimmed (opener.between text.toList line.stop) [label] := by
  intro text opener label line
  have hline : line ∈ ofText text := by decide +kernel
  have hsplit : line.body = [] ++ opener :: [label] := rfl
  have hopener : opener.kind ∈ TokenKind.textOpeners := by decide
  exact ⟨hline, hsplit, hopener, ofText_trimmed hline hsplit hopener⟩

/-- A space that does not break a line is white space, and stays in front of a title. -/
theorem ofText_trimmed_noBreakSpace :
    let text := "title \u00a0x"
    ∃ line opener title, line ∈ ofText text ∧ line.body = [opener, title] ∧
      opener.kind ∈ TokenKind.textOpeners ∧ title.kind = .text ∧
      title.value.toList ≠ trim isBlank (opener.between text.toList line.stop) := by
  intro text
  let opener : Token := ⟨.keyword .title, "title", 1, 1, 0, 5⟩
  let title : Token := ⟨.text, "\u00a0x", 1, 7, 6, 2⟩
  let line : TokenLine := ⟨[opener, title], ⟨.endOfInput, "", 1, 9, 8, 0⟩⟩
  have hline : line ∈ ofText text := by decide +kernel
  exact ⟨line, opener, title, hline, rfl, by decide, rfl, by decide +kernel⟩

end TokenLine

end SequenceChart
