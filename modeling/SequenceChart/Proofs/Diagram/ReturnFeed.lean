import SequenceChart.Proofs.Diagram.LineBreaks
import SequenceChart.Proofs.Diagram.Recovery

namespace SequenceChart

namespace Token

open Text

/-- A quoted name without a closing mark. -/
def IsUnclosed (token : Token) : Prop :=
  token.kind = .invalid ∧ token.value.toList.head? = some '"'

/-- The token as it is found when its line ends in more white space: a line break stands one column
    further on, and a quoted name without a closing mark is longer. -/
def returned (tail : List Char) (token : Token) : Token :=
  if token.kind = .lineBreak then { token with column := token.column + 1 } else token.extend tail

theorem returned_eq_extend {tail : List Char} {token : Token} (hkind : token.kind ≠ .lineBreak) :
    token.returned tail = token.extend tail :=
  if_neg hkind

theorem extend_eq_self {tail : List Char} {token : Token} (hclosed : ¬ token.IsUnclosed) :
    token.extend tail = token :=
  if_neg hclosed

theorem returned_kind (tail : List Char) (token : Token) :
    (token.returned tail).kind = token.kind := by
  unfold returned
  split
  · rfl
  · exact extend_kind tail token

theorem returned_line (tail : List Char) (token : Token) :
    (token.returned tail).line = token.line := by
  unfold returned extend
  split
  · rfl
  · split <;> rfl

theorem returned_column (tail : List Char) (token : Token) :
    (token.returned tail).column = token.column + if token.kind = .lineBreak then 1 else 0 := by
  unfold returned extend
  split
  · rfl
  · split <;> exact (Int.add_zero _).symm

theorem returned_value {tail : List Char} {token : Token} (hclosed : ¬ token.IsUnclosed) :
    (token.returned tail).value = token.value := by
  unfold returned
  split
  · rfl
  · rw [extend_eq_self hclosed]

/-- A longer name starts as it did. -/
theorem returned_quote (tail : List Char) (token : Token) (hkind : token.kind = .invalid) :
    (token.returned tail).value.toList.head? = some '"' ↔ token.value.toList.head? = some '"' := by
  by_cases hquote : token.value.toList.head? = some '"'
  · have hopen : token.kind = .invalid ∧ token.value.toList.head? = some '"' := ⟨hkind, hquote⟩
    rw [returned_eq_extend (by simp [hkind]), extend, if_pos hopen]
    simp [List.head?_append, hquote]
  · rw [returned_value fun hopen => hquote hopen.2]

/-- The token as it is found, without its offset. -/
def respelled (tail : List Char) (token : Token) : Token :=
  (token.returned tail).unmeasured

theorem resembles_respelled (tail : List Char) (tokens : List Token) :
    TokenLine.Resembles (respelled tail) tokens := fun token _ =>
  ⟨returned_kind tail token, fun hkind => returned_value fun hopen => hkind hopen.1,
    returned_quote tail token⟩

theorem respelled_eq_unmeasured {tail : List Char} {token : Token} (hinvalid : token.kind ≠ .invalid)
    (hbreak : token.kind ≠ .lineBreak) : token.respelled tail = token.unmeasured := by
  rw [respelled, returned_eq_extend hbreak, extend_eq_self fun hopen => hinvalid hopen.1]

theorem map_unmeasured_place (line start later position : Nat) (lexemes : List Lexeme) :
    (place line later position lexemes).map unmeasured =
      (place line start position lexemes).map unmeasured := by
  have hsame (start : Nat) : (place line start position lexemes).map unmeasured =
      (place line 0 position lexemes).map unmeasured := by
    have hshift := place_shift line 0 position 0 start lexemes
    rw [Nat.add_zero, Nat.zero_add] at hshift
    rw [hshift, List.map_map]
    exact List.map_congr_left fun token _ => by simp [unmeasured, shift]
  exact (hsame later).trans (hsame start).symm

/-- The tokens of a line that ends in more white space. -/
theorem ofLine_respelled {tail : List Char} (htail : ∀ c ∈ tail, isBlank c = true)
    (line start later : Nat) (source : List Char) :
    (ofLine line later (source ++ tail)).map unmeasured =
      (ofLine line start source).map (respelled tail) := by
  rw [ofLine, map_unmeasured_place line start, Lexeme.place_ofLine_append htail, List.map_map]
  refine List.map_congr_left fun token htoken => ?_
  rw [respelled, returned_eq_extend (kind_of_mem_ofLine htoken).1]
  rfl

end Token

namespace Statement

theorem token?_of_complaint? {front : List Statement} {statement : Statement} {problem : Diagnostic}
    (hcomplaint : statement.complaint? front = some problem) :
    statement.token? = some problem.token := by
  unfold complaint? at hcomplaint
  split at hcomplaint
  · split at hcomplaint
    · cases hcomplaint
    split at hcomplaint <;> cases hcomplaint
    rfl
  · split at hcomplaint <;> cases hcomplaint
    rfl
  · split at hcomplaint <;> cases hcomplaint
    rfl
  · cases hcomplaint

theorem token?_of_unclosed? {back : List Statement} {statement : Statement} {problem : Diagnostic}
    (hunclosed : statement.unclosed? back = some problem) :
    statement.token? = some problem.token := by
  unfold unclosed? at hunclosed
  split at hunclosed
  · split at hunclosed <;> cases hunclosed
    rfl
  · cases hunclosed

/-- What is reported of a statement depends on the tokens of the statements by their kinds and values
    only. -/
theorem reported_congr {f : Token → Token} (hf : Token.Relocates f) {statement other : Statement}
    {front back earlier later : List Statement} (hsame : other.mapTokens f = statement.mapTokens f)
    (hfront : earlier.map (mapTokens f) = front.map (mapTokens f))
    (hback : later.map (mapTokens f) = back.map (mapTokens f)) :
    ((other.complaint? earlier).or (other.unclosed? later)).map (Diagnostic.mapToken f) =
      ((statement.complaint? front).or (statement.unclosed? back)).map (Diagnostic.mapToken f) := by
  rw [Option.map_or, Option.map_or, ← complaint?_map hf, ← complaint?_map hf, ← unclosed?_map hf,
    ← unclosed?_map hf, hsame, hfront, hback]

end Statement

/-- The same problem, found on a line that ends in more white space. -/
def Diagnostic.Respelled (problem other : Diagnostic) : Prop :=
  ∃ tail, other.mapToken Token.unmeasured = problem.mapToken (Token.respelled tail)

namespace TokenLine

open Token

/-- The same line, ending in more white space. -/
def Respelled (line other : TokenLine) : Prop :=
  ∃ tail, other.mapTokens unmeasured = line.mapTokens (respelled tail)

theorem Form.kind_ne_lineBreak {line : List Token} {statement : Statement}
    (hform : Form line statement) {token : Token} (htoken : token ∈ line) :
    token.kind ≠ .lineBreak := by
  have hname {name : Token} (hname : name.IsName) : name.kind ≠ .lineBreak := by
    rw [hname.1]
    decide
  cases hform <;> grind

theorem Form.respelled_eq_unmeasured {line : List Token} {statement : Statement}
    (hform : Form line statement) (tail : List Char) {token : Token} (htoken : token ∈ line) :
    token.respelled tail = token.unmeasured :=
  Token.respelled_eq_unmeasured (hform.kind_ne_invalid htoken) (hform.kind_ne_lineBreak htoken)

theorem Form.mapTokens_congr {line : List Token} {statement : Statement} (hform : Form line statement)
    {f g : Token → Token} (hsame : ∀ token ∈ line, f token = g token) :
    statement.mapTokens f = statement.mapTokens g := by
  have hlabel {label : Option Token} (hsame : ∀ token ∈ label.toList, f token = g token) :
      label.map f = label.map g :=
    Option.map_congr fun token htoken => hsame token (Option.mem_toList.2 htoken)
  cases hform <;> simp_all [Statement.mapTokens]

theorem outcome?_respelled {line other : TokenLine} {tail : List Char}
    (hother : other.mapTokens unmeasured = line.mapTokens (respelled tail)) :
    other.outcome?.map (mapOutcome unmeasured) = line.outcome?.map (mapOutcome (respelled tail)) := by
  rw [← outcome?_map relocates_unmeasured, hother]
  obtain ⟨body, stop⟩ := line
  cases body with
  | nil => rfl
  | cons first rest => exact congrArg some (read_map (resembles_respelled tail (first :: rest)))

/-- A statement has no token that its line changes at the end. -/
theorem statement?_respelled {line other : TokenLine} (hother : Respelled line other) :
    other.statement?.map (Statement.mapTokens unmeasured) =
      line.statement?.map (Statement.mapTokens unmeasured) := by
  obtain ⟨tail, hother⟩ := hother
  have houtcome := outcome?_respelled hother
  cases hline : line.outcome? with
  | none =>
    rw [hline, Option.map_none, Option.map_eq_none_iff] at houtcome
    simp [statement?, hline, houtcome]
  | some outcome =>
    rw [hline] at houtcome
    obtain ⟨found, hfound, hsame⟩ := Option.map_eq_some_iff.1 houtcome
    cases outcome with
    | error problem =>
      cases found with
      | error other => simp [statement?, hline, hfound]
      | ok statement => cases hsame
    | ok statement =>
      cases found with
      | error other => cases hsame
      | ok other =>
        have hform := form_of_statement? (statement?_of_outcome? hline)
        have hplain := hform.mapTokens_congr fun token => hform.respelled_eq_unmeasured tail
        simpa [statement?, hline, hfound, ← hplain] using Except.ok.inj hsame

theorem statements_respelled {lines others : List TokenLine}
    (hlines : List.Forall₂ Respelled lines others) :
    (statements others).map (Statement.mapTokens unmeasured) =
      (statements lines).map (Statement.mapTokens unmeasured) := by
  induction hlines with
  | nil => rfl
  | cons hline hlines ih => exact statements_cons_congr (statement?_respelled hline) ih

/-- What is reported of a statement is reported of it also when its line ends in more white space: no
    token that changes with the end of its line is in a statement. -/
theorem respelled_of_reported {line : TokenLine} {statement : Statement}
    (houtcome : line.outcome? = some (.ok statement)) {front back : List Statement}
    {problem : Diagnostic}
    (hreported : (statement.complaint? front).or (statement.unclosed? back) = some problem)
    (tail : List Char) : problem.mapToken (respelled tail) = problem.mapToken unmeasured := by
  have hform := form_of_statement? (statement?_of_outcome? houtcome)
  have htoken : statement.token? = some problem.token := by
    obtain hcomplaint | ⟨_, hunclosed⟩ := Option.or_eq_some_iff.1 hreported
    · exact Statement.token?_of_complaint? hcomplaint
    · exact Statement.token?_of_unclosed? hunclosed
  exact congrArg (Diagnostic.mk · problem.problem)
    (hform.respelled_eq_unmeasured tail (hform.token_mem htoken))

/-- What is reported of a line is reported of it also when it ends in more white space. -/
theorem fault?_respelled {line other : TokenLine} {before after earlier later : List TokenLine}
    (hline : Respelled line other)
    (hbefore : (statements earlier).map (Statement.mapTokens unmeasured) =
      (statements before).map (Statement.mapTokens unmeasured))
    (hafter : (statements later).map (Statement.mapTokens unmeasured) =
      (statements after).map (Statement.mapTokens unmeasured)) :
    List.Forall₂ Diagnostic.Respelled (fault? before line after).toList
      (fault? earlier other later).toList := by
  have hstatement := statement?_respelled hline
  obtain ⟨tail, hother⟩ := hline
  have houtcome := outcome?_respelled hother
  unfold fault?
  cases hread : line.outcome? with
  | none =>
    rw [hread, Option.map_none, Option.map_eq_none_iff] at houtcome
    rw [houtcome]
    exact .nil
  | some outcome =>
    rw [hread] at houtcome
    obtain ⟨found, hfound, hsame⟩ := Option.map_eq_some_iff.1 houtcome
    rw [hfound]
    -- The end of the line can only be seen in the problem of a rejected line.
    cases outcome with
    | error problem =>
      cases found with
      | ok statement => cases hsame
      | error other => exact .cons ⟨tail, Except.error.inj hsame⟩ .nil
    | ok statement =>
      cases found with
      | error problem => cases hsame
      | ok other =>
        simp only [statement?, hread, hfound, Option.map_some, Option.some.injEq] at hstatement
        have hreported :=
          Statement.reported_congr relocates_unmeasured hstatement hbefore hafter
        cases hproblem : (statement.complaint? (statements before)).or
            (statement.unclosed? (statements after)) with
        | none =>
          rw [hproblem, Option.map_none, Option.map_eq_none_iff] at hreported
          simp only [hproblem, hreported]
          exact .nil
        | some problem =>
          rw [hproblem] at hreported
          obtain ⟨found, hfound, hsame⟩ := Option.map_eq_some_iff.1 hreported
          simp only [hproblem, hfound]
          exact .cons ⟨tail, hsame.trans (respelled_of_reported hread hproblem tail).symm⟩ .nil

/-- What is reported of lines is reported of them also when they end in more white space. -/
theorem faults_respelled {lines others before earlier : List TokenLine}
    (hlines : List.Forall₂ Respelled lines others)
    (hbefore : (statements earlier).map (Statement.mapTokens unmeasured) =
      (statements before).map (Statement.mapTokens unmeasured)) :
    List.Forall₂ Diagnostic.Respelled (faults before lines) (faults earlier others) := by
  induction hlines generalizing before earlier with
  | nil => exact .nil
  | cons hline hlines ih =>
    exact List.rel_append (fault?_respelled hline hbefore (statements_respelled hlines))
      (ih (statements_concat_congr (statement?_respelled hline) hbefore))

/-- The lines of a text end in one more character of white space when its line feeds get a carriage
    return in front of them. -/
theorem ofTokens_respelled (line start later : Nat) (source : List Char) (rest : List (List Char)) :
    List.Forall₂ Respelled (ofTokens (ofLines line start source rest))
      (ofTokens (ofLines line later (withReturns source rest).1 (withReturns source rest).2)) := by
  induction rest generalizing line start later source with
  | nil =>
    rw [withReturns, ofTokens_ofLines_nil, ofTokens_ofLines_nil]
    refine .cons ⟨[], congrArg₂ TokenLine.mk ?_ rfl⟩ .nil
    have hbody := ofLine_respelled (List.forall_mem_nil _) line start later source
    rwa [List.append_nil] at hbody
  | cons following rest ih =>
    rw [withReturns, ofTokens_ofLines_cons, ofTokens_ofLines_cons]
    refine .cons ⟨['\r'], congrArg₂ TokenLine.mk ?_ ?_⟩ (ih _ _ _ _)
    · exact ofLine_respelled (List.forall_mem_singleton.2 rfl) line start later source
    · simp [respelled, returned, ending, unmeasured]

end TokenLine

/-- The same problem of a text with a carriage return in front of each line feed. The end of a line is
    found behind the carriage return, one column further on. The words are the same, unless they name
    a quoted name without a closing mark, which reaches up to the end of its line. -/
structure Diagnostic.Returned (problem other : Diagnostic) : Prop where
  complaint : other.problem = problem.problem
  kind : other.token.kind = problem.token.kind
  value : ¬ problem.token.IsUnclosed → other.token.value = problem.token.value
  line : other.token.line = problem.token.line
  column : other.token.column =
    problem.token.column + if problem.token.kind = .lineBreak then 1 else 0
  message : (problem.token.IsUnclosed → problem.problem = .unterminatedName) →
    other.message = problem.message

theorem Diagnostic.Respelled.returned {problem other : Diagnostic} (hsame : Respelled problem other) :
    Returned problem other := by
  obtain ⟨tail, hsame⟩ := hsame
  obtain ⟨htoken, hproblem⟩ := Diagnostic.mk.inj hsame
  have hkind : other.token.kind = problem.token.kind :=
    (congrArg Token.kind htoken).trans (Token.returned_kind tail problem.token)
  have hvalue (hclosed : ¬ problem.token.IsUnclosed) : other.token.value = problem.token.value :=
    (congrArg Token.value htoken).trans (Token.returned_value hclosed)
  refine ⟨hproblem, hkind, hvalue, (congrArg Token.line htoken).trans (Token.returned_line tail _),
    (congrArg Token.column htoken).trans (Token.returned_column tail _), fun hnamed => ?_⟩
  by_cases hopen : problem.token.IsUnclosed
  · simp only [message, hproblem, hnamed hopen]
  · simp only [message, hproblem, firstCharacter, Token.describe, hkind, hvalue hopen]

namespace Diagram

open Token TokenLine

/-- When the line feeds of a text get a carriage return in front of them, the diagram stays, and every
    problem is found again: with the same token, on the same line and in the same column, but one
    column further on if it is attributed to the end of a line, since the line still ends at its line
    feed. -/
theorem ofText_returnFeed {text : String} (htext : '\r' ∉ text.toList) :
    ∃ diagram problems others, ofText text = .ok (diagram, problems) ∧
      ofText (Text.writeBreaks ['\r', '\n'] text) = .ok (diagram, others) ∧
      List.Forall₂ Diagnostic.Returned problems others := by
  have hlines : List.Forall₂ Respelled (TokenLine.ofText text)
      (TokenLine.ofText (Text.writeBreaks ['\r', '\n'] text)) := by
    rw [TokenLine.ofText, TokenLine.ofText, Token.ofText, Token.ofText, Text.writeBreaks,
      String.toList_ofList, splitLines_withReturns htext]
    exact ofTokens_respelled 1 0 0 _ _
  refine ⟨_, _, _, ofText_eq_ok text, ?_,
    (faults_respelled hlines rfl).imp fun _ _ => Diagnostic.Respelled.returned⟩
  rw [ofText_eq_ok, ← Builder.foldl_after_mapTokens relocates_unmeasured, statements_respelled hlines,
    Builder.foldl_after_mapTokens relocates_unmeasured]

/-- A line without a target, and a line with a quoted name without an end. -/
theorem ofText_returnFeed_target :
    let text := "A ->\nA \"b\n"
    '\r' ∉ text.toList ∧
      ∃ diagram problems others, ofText text = .ok (diagram, problems) ∧
        ofText (Text.writeBreaks ['\r', '\n'] text) = .ok (diagram, others) ∧
        List.Forall₂ Diagnostic.Returned problems others := by
  intro text
  have htext : '\r' ∉ text.toList := by decide
  exact ⟨htext, ofText_returnFeed htext⟩

/-- The missing target is missed one column further on, and the quoted name without an end has the
    carriage return in it, so that the problems do not look the same. -/
theorem ofText_returnFeed_differs :
    let text := "A ->\nA \"b\n"
    '\r' ∉ text.toList ∧ ∃ diagram problems others, ofText text = .ok (diagram, problems) ∧
      ofText (Text.writeBreaks ['\r', '\n'] text) = .ok (diagram, others) ∧
      problems.map Diagnostic.seen =
        [(1, 5, "expected participant name, found end of line"),
          (2, 3, "expected arrow or end of line, found '\"b'")] ∧
      others.map Diagnostic.seen =
        [(1, 6, "expected participant name, found end of line"),
          (2, 3, "expected arrow or end of line, found '\"b\\r'")] ∧
      ¬ others.map Diagnostic.seen = problems.map Diagnostic.seen := by
  intro text
  have hdiagram (text : String) (hnone : statements (TokenLine.ofText text) = []) :
      ofText text = .ok ({}, faults [] (TokenLine.ofText text)) := by
    rw [ofText_eq_ok, hnone]
    rfl
  refine ⟨by decide, {}, _, _, hdiagram text ?_, hdiagram _ ?_, ?_⟩ <;> decide +kernel

end Diagram

end SequenceChart
