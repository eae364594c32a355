import SequenceChart.Proofs.Token.Scanned

namespace SequenceChart

open Lexeme

/-- The kinds of the tokens in front of a keyword on its line: those of a participant if it is the
    keyword of a label, and none otherwise. -/
def Keyword.context : Keyword → List TokenKind
  | label => [.keyword .participant, .name]
  | _ => []

theorem Keyword.context_eq_nil_iff {keyword : Keyword} :
    keyword.context = [] ↔ keyword ∈ lineKeywords := by
  cases keyword with
  | fragment kind => cases kind <;> decide
  | _ => decide

theorem Keyword.context_eq_label {keyword : Keyword}
    (hcontext : keyword.context = [.keyword .participant, .name]) : keyword = .label := by
  cases keyword with
  | label => rfl
  | _ => cases hcontext

theorem Keyword.ofWord?_eq_some_iff {text : String} {keyword : Keyword} :
    ofWord? text = some keyword ↔ keyword ∈ lineKeywords ∧ keyword.word = text := by
  constructor
  · intro hfound
    exact ⟨List.mem_of_find?_eq_some hfound, by simpa using List.find?_some hfound⟩
  · rintro ⟨hkeyword, rfl⟩
    -- No two of the keywords have the same word, so that the first one found is the right one.
    have hall : ∀ keyword ∈ lineKeywords, ofWord? keyword.word = some keyword := by decide +kernel
    exact hall keyword hkeyword

namespace Lexeme

/-- A word is a keyword exactly if it is written as one and stands behind what belongs in front of
    the keyword. -/
theorem wordKind_eq_keyword_iff {seen : List TokenKind} {word : List Char} {keyword : Keyword} :
    wordKind seen word = .keyword keyword ↔
      String.ofList word = keyword.word ∧ seen = keyword.context := by
  unfold wordKind
  split
  · rw [eq_comm (a := []), Keyword.context_eq_nil_iff, and_comm, eq_comm (b := keyword.word),
      ← Keyword.ofWord?_eq_some_iff]
    cases Keyword.ofWord? (String.ofList word) <;> simp
  · split
    · next hword =>
      constructor
      · intro hkind
        cases hkind
        exact ⟨hword, rfl⟩
      · rintro ⟨_, hcontext⟩
        rw [Keyword.context_eq_label hcontext.symm]
    · next hword =>
      refine ⟨fun hname => (by cases hname), ?_⟩
      rintro ⟨hkeyword, hcontext⟩
      rw [Keyword.context_eq_label hcontext.symm] at hkeyword
      exact absurd hkeyword hword
  · next hnil hparticipant =>
    refine ⟨fun hname => (by cases hname), ?_⟩
    rintro ⟨_, rfl⟩
    cases keyword with
    | label => exact absurd rfl hparticipant
    | _ => exact absurd rfl hnil

/-- A word is a name unless it is a keyword. -/
theorem wordKind_cases (seen : List TokenKind) (word : List Char) :
    wordKind seen word = .name ∨ ∃ keyword, wordKind seen word = .keyword keyword := by
  unfold wordKind
  split
  · cases Keyword.ofWord? (String.ofList word) with
    | none => exact .inl rfl
    | some keyword => exact .inr ⟨keyword, rfl⟩
  · split
    · exact .inr ⟨.label, rfl⟩
    · exact .inl rfl
  · exact .inl rfl

theorem wordKind_ne (seen : List TokenKind) (word : List Char) {kind : TokenKind} (hname : kind ≠ .name)
    (hkeyword : ∀ keyword, kind ≠ .keyword keyword) : wordKind seen word ≠ kind := by
  rintro rfl
  obtain hkind | ⟨keyword, hkind⟩ := wordKind_cases seen word
  · exact hname hkind
  · exact hkeyword keyword hkind

@[simp] theorem filterMap_kind?_token (kind : TokenKind) (value source : List Char)
    (lexemes : List Lexeme) :
    (token kind value source :: lexemes).filterMap kind? = kind :: lexemes.filterMap kind? := rfl

end Lexeme

namespace Token

/-- A token among those of lexemes comes from one of them, the tokens in front of it come from the
    lexemes in front of that one, and the tokens behind it from those behind it. -/
theorem place_eq_append {line start position : Nat} {lexemes : List Lexeme} {before after : List Token}
    {token : Token} (hsplit : place line start position lexemes = before ++ token :: after) :
    ∃ front value source back, lexemes = front ++ .token token.kind value source :: back ∧
      token.value = String.ofList value ∧ token.line = line ∧
      token.offset = start + (position + (front.flatMap Lexeme.source).length) ∧
      token.length = source.length ∧ before.map kind = front.filterMap kind? ∧
      ∃ next, after = place line start next back := by
  induction lexemes generalizing position before with
  | nil => simp [place] at hsplit
  | cons lexeme lexemes ih =>
    cases lexeme with
    | skipped covered =>
      obtain ⟨front, value, source, back, rfl, hvalue, hline, hoffset, hlength, hbefore, hafter⟩ :=
        ih hsplit
      refine ⟨.skipped covered :: front, value, source, back, rfl, hvalue, hline, ?_, hlength, hbefore,
        hafter⟩
      rw [hoffset, List.flatMap_cons, List.length_append, Lexeme.source]
      omega
    | token kind value covered =>
      cases before with
      | nil =>
        obtain ⟨rfl, rfl⟩ := List.cons.inj hsplit
        exact ⟨[], value, covered, lexemes, rfl, rfl, rfl, rfl, rfl, rfl, _, rfl⟩
      | cons first before =>
        obtain ⟨rfl, hrest⟩ := List.cons.inj hsplit
        obtain ⟨front, text, source, back, rfl, hvalue, hline, hoffset, hlength, hbefore, hafter⟩ :=
          ih hrest
        refine ⟨.token kind value covered :: front, text, source, back, rfl, hvalue, hline, ?_, hlength,
          ?_, hafter⟩
        · rw [hoffset, List.flatMap_cons, List.length_append, Lexeme.source]
          omega
        · rw [List.map_cons, hbefore, filterMap_kind?_token]

/-- Every token of a line is read somewhere on it, and has the number of the line. -/
theorem reads_of_mem_ofLine {line start : Nat} {source : List Char} {token : Token}
    (htoken : token ∈ ofLine line start source) :
    token.line = line ∧ ∃ seen value covered rest,
      Reads seen (.token token.kind value covered) rest ∧ token.value = String.ofList value := by
  obtain ⟨before, after, hsplit⟩ := List.append_of_mem htoken
  obtain ⟨front, value, covered, back, hlexemes, hvalue, hline, _⟩ := place_eq_append hsplit
  have hread := ofLine_allRead [] source [] atLineEnd_nil
  rw [hlexemes, allRead_append] at hread
  exact ⟨hline, _, value, covered, _, hread.2.1, hvalue⟩

/-- A token that is read within a line neither breaks it nor ends the input, and it has the word of
    its keyword, or characters if it has no meaning or is free text. -/
theorem kind_of_reads {seen : List TokenKind} {kind : TokenKind} {value covered rest : List Char}
    (hreads : Reads seen (.token kind value covered) rest) :
    (kind ≠ .lineBreak ∧ kind ≠ .endOfInput) ∧ (kind = .invalid ∨ kind = .text → value ≠ []) ∧
      ∀ keyword, kind = .keyword keyword → String.ofList value = keyword.word := by
  cases hreads with
  | @word c body _ hstart hbody hend =>
    have hne {kind : TokenKind} := @wordKind_ne seen (c :: body) kind
    exact ⟨⟨hne (by simp) (by simp), hne (by simp) (by simp)⟩, by simp,
      fun keyword hkeyword => (wordKind_eq_keyword_iff.1 hkeyword).1⟩
  | invalid hne hrun hend => simp [hne]
  | text hne => simp [hne]
  | _ => simp

theorem kind_of_mem_ofLine {line start : Nat} {source : List Char} {token : Token}
    (htoken : token ∈ ofLine line start source) :
    token.kind ≠ .lineBreak ∧ token.kind ≠ .endOfInput := by
  obtain ⟨_, _, _, _, _, hreads, _⟩ := reads_of_mem_ofLine htoken
  exact (kind_of_reads hreads).1

/-- The tokens of the lines of a text stand on one of the lines, or end one. -/
theorem mem_ofLines {line start : Nat} {source : List Char} {rest : List (List Char)} {token : Token}
    (htoken : token ∈ ofLines line start source rest) :
    token.kind = .lineBreak ∨ token.kind = .endOfInput ∨
      ∃ number offset text, token ∈ ofLine number offset text := by
  induction rest generalizing line start source with
  | nil =>
    obtain htoken | htoken := List.mem_append.1 htoken
    · exact .inr (.inr ⟨_, _, _, htoken⟩)
    · rw [List.mem_singleton.1 htoken]
      exact .inr (.inl rfl)
  | cons following rest ih =>
    obtain htoken | htoken := List.mem_append.1 htoken
    · exact .inr (.inr ⟨_, _, _, htoken⟩)
    · obtain rfl | htoken := List.mem_cons.1 htoken
      · exact .inl rfl
      · exact ih htoken

/-- No token of a text lacks characters for its meaning: neither one without a meaning nor free text
    is empty, and a keyword is written as its word. -/
theorem value_of_mem_ofText {text : String} {token : Token} (htoken : token ∈ ofText text) :
    (token.kind = .invalid ∨ token.kind = .text → token.value ≠ "") ∧
      ∀ keyword, token.kind = .keyword keyword → token.value = keyword.word := by
  obtain hkind | hkind | ⟨number, offset, source, htoken⟩ := mem_ofLines htoken
  · simp [hkind]
  · simp [hkind]
  · obtain ⟨_, seen, value, covered, rest, hreads, hvalue⟩ := reads_of_mem_ofLine htoken
    obtain ⟨_, hfilled, hkeyword⟩ := kind_of_reads hreads
    rw [hvalue]
    exact ⟨fun hkind => by simpa using hfilled hkind, hkeyword⟩

end Token

end SequenceChart
