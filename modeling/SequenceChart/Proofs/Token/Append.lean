import SequenceChart.Proofs.Token.Kinds

namespace SequenceChart.Token

/-- A token of a text before which more text is put: some lines, and some characters. The last of
    these characters ends a line, so that no column changes. -/
def shift (lines characters : Nat) (token : Token) : Token :=
  { token with line := token.line + lines, offset := token.offset + characters }

/-- The line break that stands where a text ended before more lines were put after it. -/
def asBreak (stop : Token) : Token :=
  { stop with kind := .lineBreak, value := "\n", length := 1 }

theorem place_shift (line start position lines characters : Nat) (lexemes : List Lexeme) :
    place (line + lines) (start + characters) position lexemes =
      (place line start position lexemes).map (shift lines characters) := by
  induction lexemes generalizing position with
  | nil => rfl
  | cons lexeme lexemes ih =>
    cases lexeme with
    | skipped source => exact ih _
    | token kind value source =>
      simp only [place, List.map_cons, ih, shift, List.cons.injEq, Token.mk.injEq, and_true, true_and]
      omega

theorem ending_shift (kind : TokenKind) (value : String) (line start : Nat) (source : List Char)
    (length lines characters : Nat) :
    ending kind value (line + lines) (start + characters) source length =
      (ending kind value line start source length).shift lines characters := by
  simp only [ending, shift, Token.mk.injEq, and_true, true_and]
  omega

/-- Lines that are read from further down a text give the same tokens, further down. -/
theorem ofLines_shift (line start lines characters : Nat) (source : List Char)
    (rest : List (List Char)) :
    ofLines (line + lines) (start + characters) source rest =
      (ofLines line start source rest).map (shift lines characters) := by
  induction rest generalizing line start source with
  | nil => simp [ofLines, ofLine, place_shift, ending_shift]
  | cons following rest ih =>
    have hline : line + lines + 1 = line + 1 + lines := by omega
    have hstart : start + characters + source.length + 1 = start + source.length + 1 + characters := by
      omega
    simp [ofLines, ofLine, place_shift, ending_shift, hline, hstart, ih]

theorem countP_ofLine (line start : Nat) (source : List Char) :
    (ofLine line start source).countP (·.kind = .lineBreak) = 0 := by
  rw [List.countP_eq_zero]
  intro token htoken
  simpa using (kind_of_mem_ofLine htoken).1

/-- The tokens of some lines, when more lines are put after them: the end of the input turns into a
    line break, and the tokens of the other lines follow. -/
theorem ofLines_append {text first : List Char} {rest : List (List Char)}
    (hlines : Lines text first rest) (line start : Nat) :
    ∃ body stop, ofLines line start first rest = body ++ [stop] ∧ stop.kind = .endOfInput ∧
      (∀ token ∈ body, token.kind ≠ .endOfInput) ∧
      body.countP (·.kind = .lineBreak) = rest.length ∧
      ∀ following more, ofLines line start first (rest ++ following :: more) =
        body ++ stop.asBreak ::
          ofLines (line + (rest.length + 1)) (start + (text.length + 1)) following more := by
  have hend {line start : Nat} {source : List Char} :
      ∀ token ∈ ofLine line start source, token.kind ≠ .endOfInput :=
    fun _ htoken => (kind_of_mem_ofLine htoken).2
  induction hlines generalizing line start with
  | @last source hunbroken =>
    refine ⟨ofLine line start source, _, rfl, rfl, hend, countP_ofLine .., ?_⟩
    intro following more
    simp only [List.nil_append, ofLines, List.length_nil, Nat.zero_add, Nat.add_assoc]
    rfl
  | @cons source rest next c lines hunbroken hbreak tail ih =>
    obtain ⟨body, stop, hbody, hstop, hinside, hcount, hmore⟩ :=
      ih (line + 1) (start + source.length + 1)
    refine ⟨ofLine line start source ++ ending .lineBreak "\n" line start source 1 :: body, stop,
      ?_, hstop, ?_, ?_, ?_⟩
    · rw [ofLines, hbody, List.append_assoc, List.cons_append]
    · intro token htoken
      obtain htoken | htoken := List.mem_append.1 htoken
      · exact hend token htoken
      · obtain rfl | htoken := List.mem_cons.1 htoken
        · simp [ending]
        · exact hinside token htoken
    · rw [List.countP_append, countP_ofLine, List.countP_cons_of_pos (by simp [ending]), hcount,
        List.length_cons, Nat.zero_add]
    · intro following more
      have hline : line + 1 + (lines.length + 1) = line + ((next :: lines).length + 1) := by
        simp only [List.length_cons]
        omega
      have hstart : start + source.length + 1 + (rest.length + 1) =
          start + ((source ++ c :: rest).length + 1) := by
        simp only [List.length_append, List.length_cons]
        omega
      rw [List.cons_append, ofLines, hmore, hline, hstart, List.append_assoc, List.cons_append]

theorem ofText_getLast?_kind (text : String) :
    (ofText text).getLast?.map kind = some .endOfInput := by
  obtain ⟨body, stop, htokens, hstop, _⟩ := ofLines_append (splitLines_lines text.toList) 1 0
  rw [ofText, htokens, List.getLast?_concat, Option.map_some, hstop]

/-- The tokens of two texts with a line break between them, of which the first one does not end in a
    carriage return. -/
theorem ofText_append (first second : String) (hfirst : first.toList.getLast? ≠ some '\r') :
    ∃ body stop, ofText first = body ++ [stop] ∧ stop.kind = .endOfInput ∧
      (∀ token ∈ body, token.kind ≠ .endOfInput) ∧
      ofText (first ++ "\n" ++ second) = body ++ stop.asBreak ::
        (ofText second).map
          (shift (body.countP (·.kind = .lineBreak) + 1) (first.toList.length + 1)) := by
  obtain ⟨body, stop, hbody, hstop, hinside, hcount, hmore⟩ :=
    ofLines_append (splitLines_lines first.toList) 1 0
  refine ⟨body, stop, hbody, hstop, hinside, ?_⟩
  have htext : (first ++ "\n" ++ second).toList = first.toList ++ '\n' :: second.toList := by
    simp [String.toList_append]
  rw [ofText, htext, splitLines_append _ _ hfirst, hmore, ofText, ← ofLines_shift, hcount]

end SequenceChart.Token
