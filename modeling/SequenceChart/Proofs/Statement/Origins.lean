import SequenceChart.Proofs.Statement.Lines
import SequenceChart.Proofs.Token.FreeText
import SequenceChart.Proofs.Token.Lossless

namespace SequenceChart

/-- The characters of a text behind a token. -/
def Token.behind (text : List Char) (token : Token) : List Char :=
  text.drop (token.offset + token.length).toNat

namespace TokenLine

open Text Token Lexeme

/-- A line of tokens and the characters that it is read from, up to where the token stands that ends
    it. -/
structure ReadFrom (text front source back : List Char) (line : TokenLine) : Prop where
  text_eq : text = front ++ (source ++ back)
  ended : AtLineEnd back
  body : ∃ number, line.body = Token.ofLine number front.length source
  stop : line.stop.offset = (front ++ source).length
  stop_kind : line.stop.kind = .lineBreak ∨ line.stop.kind = .endOfInput

/-- Every line of tokens of some lines of a text is read from one of these lines. -/
theorem exists_readFrom_of_lines {front back first : List Char} {rest : List (List Char)}
    (hlines : Lines back first rest) (number : Nat) {line : TokenLine}
    (hline : line ∈ ofTokens (Token.ofLines number front.length first rest)) :
    ∃ before source after, line.ReadFrom (front ++ back) before source after := by
  induction hlines generalizing front number with
  | @last source hunbroken =>
    rw [ofTokens_ofLines_nil] at hline
    rw [List.mem_singleton.1 hline]
    exact ⟨front, source, [], by rw [List.append_nil], atLineEnd_nil, ⟨number, rfl⟩,
      by simp [ending], .inr rfl⟩
  | @cons source tail following c lines hunbroken hbreak htail ih =>
    rw [ofTokens_ofLines_cons] at hline
    obtain rfl | hline := List.mem_cons.1 hline
    · exact ⟨front, source, c :: tail, rfl, atLineEnd_cons hbreak, ⟨number, rfl⟩, by simp [ending],
        .inl rfl⟩
    · have hlength : front.length + source.length + 1 = (front ++ source ++ [c]).length := by
        simp only [List.length_append, List.length_singleton]
      have htext : front ++ (source ++ c :: tail) = front ++ source ++ [c] ++ tail := by simp
      rw [hlength] at hline
      rw [htext]
      exact ih (number + 1) hline

theorem exists_readFrom {text : String} {line : TokenLine} (hline : line ∈ ofText text) :
    ∃ front source back, line.ReadFrom text.toList front source back :=
  @exists_readFrom_of_lines [] text.toList _ _ (splitLines_lines text.toList) 1 line hline

/-- The lines of tokens of a text make up its tokens. -/
theorem flatMap_tokens_ofLines (line start : Nat) (source : List Char) (rest : List (List Char)) :
    (ofTokens (Token.ofLines line start source rest)).flatMap tokens =
      Token.ofLines line start source rest := by
  induction rest generalizing line start source with
  | nil =>
    rw [ofTokens_ofLines_nil, List.flatMap_singleton]
    rfl
  | cons following rest ih =>
    rw [ofTokens_ofLines_cons, List.flatMap_cons, ih, tokens, List.append_assoc]
    rfl

/-- A token of a line, between the tokens in front of it and those behind it, and the characters that
    it is read from, between those in front of it and what is left of the line. -/
structure Reads (text : List Char) (line : TokenLine) (before : List Token) (token : Token)
    (after : List Token) (front value covered left back : List Char) : Prop where
  text_eq : text = front ++ (covered ++ (left ++ back))
  offset : token.offset = front.length
  length : token.length = covered.length
  value_eq : token.value = String.ofList value
  stop : line.stop.offset = front.length + covered.length + left.length
  reads : Lexeme.Reads (before.map kind) (.token token.kind value covered) (left ++ back)
  opened : token.kind = .text →
    ∃ earlier opener, before = earlier ++ [opener] ∧ takesText opener.kind = true
  opens : takesText token.kind = true → after.map unplaced = (freeText left).filterMap token?

/-- Every token of a line of a text is read from characters of the text. -/
theorem exists_reads {text : String} {line : TokenLine} (hline : line ∈ ofText text)
    {before after : List Token} {token : Token} (hsplit : line.body = before ++ token :: after) :
    ∃ front value covered left back,
      line.Reads text.toList before token after front value covered left back := by
  obtain ⟨front, source, back, htext, hend, ⟨number, hbody⟩, hstop, _⟩ := exists_readFrom hline
  rw [hbody, Token.ofLine] at hsplit
  obtain ⟨early, value, covered, late, hlexemes, hvalue, _, hoffset, hlength, hbefore, next, hafter⟩ :=
    place_eq_append hsplit
  have hsource := ofLine_source [] source
  have hread := ofLine_allRead [] source back hend
  have hlast := ofLine_textLast [] source
  rw [hlexemes] at hsource hread hlast
  rw [List.flatMap_append, List.flatMap_cons] at hsource
  refine ⟨front ++ early.flatMap Lexeme.source, value, covered, late.flatMap Lexeme.source, back, ?_⟩
  refine ⟨?_, ?_, ?_, ?_, ?_, ?_, ?_, ?_⟩
  · rw [htext, ← hsource]
    simp [Lexeme.source]
  · rw [hoffset, List.length_append]
    omega
  · exact hlength
  · exact hvalue
  · rw [hstop, ← hsource]
    simp only [List.length_append, Lexeme.source]
    omega
  · rw [hbefore]
    exact ((allRead_append ..).1 hread).2.1
  · -- The last kind in front of free text is that of the last token in front of it.
    intro hkind
    rw [hkind] at hlast
    obtain ⟨earlier, kind, hkinds, htakes⟩ := hlast.exists_opener
    rw [← hbefore, List.map_eq_append_iff] at hkinds
    obtain ⟨earlier, last, rfl, _, hlast⟩ := hkinds
    obtain ⟨opener, rfl, rfl⟩ := List.map_eq_singleton_iff.1 hlast
    exact ⟨earlier, opener, rfl, htakes⟩
  · intro htakes
    obtain ⟨rest, rfl⟩ := hlast.eq_freeText htakes
    rw [hafter, map_unplaced_place, freeText_source]

/-- A token of a text that neither breaks a line nor ends the text is read from characters of it. -/
theorem exists_reads_of_mem {text : String} {token : Token} (htoken : token ∈ Token.ofText text)
    (hbreak : token.kind ≠ .lineBreak) (hend : token.kind ≠ .endOfInput) :
    ∃ line before after front value covered left back,
      Reads text.toList line before token after front value covered left back := by
  rw [Token.ofText, ← flatMap_tokens_ofLines] at htoken
  obtain ⟨line, hline, htoken⟩ := List.mem_flatMap.1 htoken
  obtain htoken | htoken := List.mem_append.1 htoken
  · obtain ⟨before, after, hsplit⟩ := List.append_of_mem htoken
    obtain ⟨front, value, covered, left, back, hreads⟩ := exists_reads hline hsplit
    exact ⟨line, before, after, front, value, covered, left, back, hreads⟩
  · obtain ⟨_, _, _, hread⟩ := exists_readFrom hline
    rw [List.mem_singleton.1 htoken] at hbreak hend
    exact absurd hread.stop_kind (not_or.2 ⟨hbreak, hend⟩)

variable {text front value covered left back : List Char} {line : TokenLine}
  {before after : List Token} {token : Token}

theorem Reads.drop_offset (hreads : line.Reads text before token after front value covered left back) :
    text.drop token.offset.toNat = covered ++ (left ++ back) := by
  rw [hreads.text_eq, hreads.offset, Int.toNat_natCast, List.drop_left]

theorem Reads.slice_eq (hreads : line.Reads text before token after front value covered left back) :
    token.slice text = covered := by
  rw [slice, hreads.drop_offset, hreads.length, Int.toNat_natCast, List.take_left]

theorem Reads.behind_eq (hreads : line.Reads text before token after front value covered left back) :
    token.behind text = left ++ back := by
  have hstop : (token.offset + token.length).toNat = (front ++ covered).length := by
    rw [hreads.offset, hreads.length, List.length_append]
    omega
  rw [behind, hstop, hreads.text_eq, ← List.append_assoc, List.drop_left]

/-- Behind a token that takes free text stands what the trimmed rest of the line holds: one text, or
    nothing. -/
theorem Reads.after_cases (hreads : line.Reads text before token after front value covered left back)
    (htakes : takesText token.kind = true) :
    trimEnd isBlank (left.dropWhile isMargin) = [] ∧ after = [] ∨
      trimEnd isBlank (left.dropWhile isMargin) ≠ [] ∧ ∃ found, after = [found] ∧
        found.kind = .text ∧ found.value.toList = trimEnd isBlank (left.dropWhile isMargin) := by
  have hafter := hreads.opens htakes
  rw [filterMap_token?_freeText] at hafter
  split at hafter
  · next hempty => exact .inl ⟨hempty, List.map_eq_nil_iff.1 hafter⟩
  · next hfilled =>
    obtain ⟨found, rfl, hfound⟩ := List.map_eq_singleton_iff.1 hafter
    obtain ⟨hkind, hvalue, _⟩ := Token.mk.inj hfound
    exact .inr ⟨hfilled, found, rfl, hkind, by rw [hvalue, String.toList_ofList]⟩

end TokenLine

end SequenceChart
