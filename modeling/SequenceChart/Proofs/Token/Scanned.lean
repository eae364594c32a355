import SequenceChart.Proofs.Token.Reading

namespace SequenceChart

namespace Place

theorem advance_mk (line start position length : Nat) :
    advance ⟨line, position + 1, start + position⟩ length =
      ⟨line, position + length + 1, start + (position + length)⟩ := by
  simp [advance, Nat.add_assoc, Nat.add_comm 1]

end Place

/-- The tokens of a lexeme that starts at a place: one, or none if the lexeme is skipped. -/
def Lexeme.tokensAt (place : Place) : Lexeme → List Token
  | skipped _ => []
  | token kind value source => [place.token kind (String.ofList value) source.length]

theorem Lexeme.exists_of_mem_tokensAt {place : Place} {lexeme : Lexeme} {token : Token}
    (htoken : token ∈ lexeme.tokensAt place) :
    ∃ kind value source, lexeme = .token kind value source ∧
      token = place.token kind (String.ofList value) source.length := by
  cases lexeme with
  | skipped source => cases htoken
  | token kind value source => exact ⟨kind, value, source, rfl, List.mem_singleton.1 htoken⟩

namespace Token

/-- A text is read as tokens from a place on, given the kinds of the tokens before it on its line.
    Each step takes a lexeme or a line break off the front of the text, and the last one finds
    nothing left. -/
inductive Scanned : Place → List TokenKind → List Char → List Token → Prop where
  | stop {place : Place} {seen : List TokenKind} :
      Scanned place seen [] [place.token .endOfInput "" 0]
  | lineBreak {place : Place} {seen : List TokenKind} {c : Char} {rest : List Char}
      {tokens : List Token} (hbreak : breaksLine c rest = true)
      (tail : Scanned place.nextLine [] rest tokens) :
      Scanned place seen (c :: rest) (place.token .lineBreak "\n" 1 :: tokens)
  | lexeme {place : Place} {seen : List TokenKind} {lexeme : Lexeme} {rest : List Char}
      {tokens : List Token} (hreads : lexeme.Reads seen rest)
      (hunbroken : Unbroken lexeme.source rest)
      (tail : Scanned (place.advance lexeme.source.length) (seen ++ lexeme.kind?.toList) rest tokens) :
      Scanned place seen (lexeme.source ++ rest) (lexeme.tokensAt place ++ tokens)

theorem place_cons (line start position : Nat) (lexeme : Lexeme) (lexemes : List Lexeme) :
    Token.place line start position (lexeme :: lexemes) =
      lexeme.tokensAt ⟨line, position + 1, start + position⟩ ++
        Token.place line start (position + lexeme.source.length) lexemes := by
  cases lexeme <;> rfl

/-- Lexemes that may be read where they stand are scanned one after the other. -/
theorem Scanned.lexemes (line start position : Nat) {seen : List TokenKind} {lexemes : List Lexeme}
    {rest : List Char} {tokens : List Token} (hread : Lexeme.AllRead seen lexemes rest)
    (hunbroken : Unbroken (lexemes.flatMap Lexeme.source) rest)
    (htail : ∀ later, Scanned
      ⟨line, position + (lexemes.flatMap Lexeme.source).length + 1,
        start + (position + (lexemes.flatMap Lexeme.source).length)⟩ later rest tokens) :
    Scanned ⟨line, position + 1, start + position⟩ seen (lexemes.flatMap Lexeme.source ++ rest)
      (Token.place line start position lexemes ++ tokens) := by
  induction lexemes generalizing seen position with
  | nil => exact htail seen
  | cons lexeme lexemes ih =>
    obtain ⟨hreads, hread⟩ := hread
    rw [List.flatMap_cons, unbroken_append] at hunbroken
    have hnext := ih (position + lexeme.source.length) hread hunbroken.2 (by
      intro later
      have h := htail later
      rw [List.flatMap_cons, List.length_append, ← Nat.add_assoc] at h
      exact h)
    rw [place_cons, List.flatMap_cons, List.append_assoc, List.append_assoc]
    refine .lexeme hreads hunbroken.1 ?_
    rw [Place.advance_mk]
    exact hnext

theorem ofLine_scanned (line start : Nat) {source rest : List Char} {tokens : List Token}
    (hunbroken : Unbroken source rest) (hend : AtLineEnd rest)
    (htail : ∀ later, Scanned ⟨line, source.length + 1, start + source.length⟩ later rest tokens) :
    Scanned ⟨line, 1, start⟩ [] (source ++ rest) (ofLine line start source ++ tokens) := by
  have hsource := Lexeme.ofLine_source [] source
  have hlexemes := Scanned.lexemes line start 0
    (Lexeme.ofLine_allRead [] source rest hend) (by rwa [hsource])
    (by simpa only [hsource, Nat.zero_add] using htail)
  rw [hsource] at hlexemes
  exact hlexemes

theorem ofLines_scanned {text first : List Char} {rest : List (List Char)}
    (hlines : Lines text first rest) (line start : Nat) :
    Scanned ⟨line, 1, start⟩ [] text (ofLines line start first rest) := by
  induction hlines generalizing line start with
  | @last first hunbroken =>
    have hscanned := ofLine_scanned line start hunbroken atLineEnd_nil (fun _ => .stop)
    rw [List.append_nil] at hscanned
    exact hscanned
  | @cons first tail following c lines hunbroken hbreak htail ih =>
    exact ofLine_scanned line start hunbroken (atLineEnd_cons hbreak)
      (fun _ => .lineBreak hbreak (ih ..))

/-- The tokens of a text are scanned from its start, whatever the text. -/
theorem ofText_scanned (text : String) : Scanned .origin [] text.toList (ofText text) :=
  ofLines_scanned (splitLines_lines text.toList) 1 0

end Token

end SequenceChart
