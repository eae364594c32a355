import SequenceChart.Proofs.Statement.Attribution
import SequenceChart.Proofs.Token.Kinds

namespace SequenceChart

namespace TokenLine

/-- The tokens of a line, with the one that ends it. -/
def tokens (line : TokenLine) : List Token :=
  line.body ++ [line.stop]

/-- The lines of a text. -/
def ofText (text : String) : List TokenLine :=
  ofTokens (Token.ofText text)

/-- The statement of a line, if it makes one. -/
def statement? (line : TokenLine) : Option Statement :=
  match line.outcome? with
  | some (.ok statement) => some statement
  | _ => none

/-- The problem of a line that does not make a statement. -/
def problem? (line : TokenLine) : Option Diagnostic :=
  match line.outcome? with
  | some (.error problem) => some problem
  | _ => none

/-- The first tokens of a list up to one that ends a line are a line. -/
theorem ofTokens_append {body : List Token} {stop : Token} {rest : List Token}
    (hbody : ∀ token ∈ body, token.kind ≠ .lineBreak ∧ token.kind ≠ .endOfInput)
    (hstop : stop.kind = .lineBreak ∨ stop.kind = .endOfInput) :
    ofTokens (body ++ stop :: rest) =
      ⟨body, stop⟩ :: if stop.kind = .endOfInput then [] else ofTokens rest := by
  induction body with
  | nil => obtain hstop | hstop := hstop <;> simp [ofTokens, hstop]
  | cons token body ih =>
    obtain ⟨⟨hbreak, hend⟩, hbody⟩ := List.forall_mem_cons.1 hbody
    rw [List.cons_append, ofTokens, ih hbody]
    split
    · contradiction
    · contradiction
    · rfl

/-- The tokens of the last line of a text are a line, which the end of the input ends. -/
theorem ofTokens_ofLines_nil (line start : Nat) (source : List Char) :
    ofTokens (Token.ofLines line start source []) =
      [⟨Token.ofLine line start source, Token.ending .endOfInput "" line start source 0⟩] :=
  ofTokens_append (fun _ => Token.kind_of_mem_ofLine) (.inr rfl)

/-- The tokens of a line in front of other ones are a line, which a line break ends. -/
theorem ofTokens_ofLines_cons (line start : Nat) (source following : List Char)
    (rest : List (List Char)) :
    ofTokens (Token.ofLines line start source (following :: rest)) =
      ⟨Token.ofLine line start source, Token.ending .lineBreak "\n" line start source 1⟩ ::
        ofTokens (Token.ofLines (line + 1) (start + source.length + 1) following rest) :=
  ofTokens_append (fun _ => Token.kind_of_mem_ofLine) (.inl rfl)

/-- The tokens of a line are among those that make up the lines, and only the last one ends it. -/
theorem mem_of_mem_ofTokens {all : List Token} {line : TokenLine} (hline : line ∈ ofTokens all) :
    (∀ token ∈ line.body,
      token ∈ all ∧ token.kind ≠ .lineBreak ∧ token.kind ≠ .endOfInput) ∧ line.stop ∈ all := by
  induction all generalizing line with
  | nil => cases hline
  | cons first rest ih =>
    have hlater {line : TokenLine} (hline : line ∈ ofTokens rest) :
        (∀ token ∈ line.body, token ∈ first :: rest ∧ token.kind ≠ .lineBreak ∧
          token.kind ≠ .endOfInput) ∧ line.stop ∈ first :: rest := by
      obtain ⟨hbody, hstop⟩ := ih hline
      exact ⟨fun token htoken => (hbody token htoken).imp_left (List.mem_cons_of_mem _),
        List.mem_cons_of_mem _ hstop⟩
    unfold ofTokens at hline
    split at hline
    · rw [List.mem_singleton.1 hline]
      exact ⟨by simp, List.mem_cons_self⟩
    · obtain rfl | hline := List.mem_cons.1 hline
      · exact ⟨by simp, List.mem_cons_self⟩
      · exact hlater hline
    · next hend hbreak =>
      split at hline
      · cases hline
      · next line' lines hrest =>
        obtain rfl | hline := List.mem_cons.1 hline
        · obtain ⟨hbody, hstop⟩ := hlater (hrest ▸ List.mem_cons_self)
          exact ⟨List.forall_mem_cons.2 ⟨⟨List.mem_cons_self, hbreak, hend⟩, hbody⟩, hstop⟩
        · exact hlater (hrest ▸ List.mem_cons_of_mem _ hline)

theorem exists_end {all : List Token} (hend : all.getLast?.map Token.kind = some .endOfInput) :
    ∃ token ∈ all, token.kind = .endOfInput := by
  obtain ⟨stop, hstop, hkind⟩ := Option.map_eq_some_iff.1 hend
  exact ⟨stop, List.mem_of_getLast? hstop, hkind⟩

/-- The bodies of the lines are the stretches between line breaks in front of the first end of
    input, which must be there. -/
theorem ofTokens_map_body {all : List Token} (hend : ∃ token ∈ all, token.kind = .endOfInput) :
    (ofTokens all).map body =
      (all.takeWhile (·.kind ≠ .endOfInput)).splitOnP (·.kind = .lineBreak) := by
  induction all with
  | nil => simp at hend
  | cons first rest ih =>
    unfold ofTokens
    split
    · next hkind => simp [hkind]
    · next hkind =>
      have hrest : ∃ token ∈ rest, token.kind = .endOfInput := by simpa [hkind] using hend
      simp [hkind, List.splitOnP_cons_eq_if_modifyHead, ih hrest]
    · next hfirst hbreak =>
      have hrest : ∃ token ∈ rest, token.kind = .endOfInput := by
        obtain ⟨token, htoken, hkind⟩ := hend
        obtain rfl | htoken := List.mem_cons.1 htoken
        · exact absurd hkind hfirst
        · exact ⟨token, htoken, hkind⟩
      have hbodies := ih hrest
      cases hlines : ofTokens rest with
      | nil =>
        rw [hlines, List.map_nil] at hbodies
        exact absurd hbodies.symm (List.splitOnP_ne_nil _ _)
      | cons line lines =>
        rw [hlines] at hbodies
        have htake : (first :: rest).takeWhile (·.kind ≠ .endOfInput) =
            first :: rest.takeWhile (·.kind ≠ .endOfInput) :=
          List.takeWhile_cons_of_pos (by simpa using hfirst)
        rw [htake, List.splitOnP_cons_eq_if_modifyHead, if_neg (by simpa using hbreak), ← hbodies]
        rfl

theorem attributed_of_problem? {line : TokenLine} {problem : Diagnostic}
    (hproblem : line.problem? = some problem) : Attributed line.stop line.body problem := by
  obtain ⟨body, stop⟩ := line
  cases body with
  | nil => cases hproblem
  | cons first rest =>
    simp only [problem?, outcome?] at hproblem
    split at hproblem
    · next hread =>
      cases hproblem
      exact read_attributed (by simpa using hread)
    · cases hproblem

theorem form_of_statement? {line : TokenLine} {statement : Statement}
    (hstatement : line.statement? = some statement) : Form line.body statement := by
  obtain ⟨body, stop⟩ := line
  cases body with
  | nil => cases hstatement
  | cons first rest =>
    simp only [statement?, outcome?] at hstatement
    split at hstatement
    · next hread =>
      cases hstatement
      exact read_form (by simpa using hread)
    · cases hstatement

end TokenLine

namespace Script

/-- The statements and the problems of lines are those of each line, in the order of the lines. -/
theorem ofOutcomes_lines (lines : List TokenLine) :
    ofOutcomes (lines.filterMap TokenLine.outcome?) =
      ⟨lines.filterMap TokenLine.statement?, lines.filterMap TokenLine.problem?⟩ := by
  induction lines with
  | nil => rfl
  | cons line lines ih =>
    cases houtcome : line.outcome? with
    | none => simp [houtcome, TokenLine.statement?, TokenLine.problem?, ih]
    | some outcome =>
      cases outcome <;> simp [houtcome, ofOutcomes, TokenLine.statement?, TokenLine.problem?, ih]

/-- A token list that ends in the end of the input is read line by line, provided that there are
    characters in its tokens without meaning. -/
theorem ofTokens_eq_ok {tokens : List Token}
    (hend : tokens.getLast?.map Token.kind = some .endOfInput)
    (hinvalid : ∀ token ∈ tokens, token.kind = .invalid → token.value ≠ "") :
    ofTokens tokens = .ok (ofOutcomes ((TokenLine.ofTokens tokens).filterMap TokenLine.outcome?)) := by
  have hlacks : (ofOutcomes ((TokenLine.ofTokens tokens).filterMap
      TokenLine.outcome?)).problems.any lacksCharacter = false := by
    rw [ofOutcomes_lines, List.any_eq_false]
    intro problem hproblem
    obtain ⟨line, hline, hproblem⟩ := List.mem_filterMap.1 hproblem
    simp only [lacksCharacter, Bool.and_eq_true, decide_eq_true_eq, not_and]
    intro hunexpected
    obtain ⟨htoken, hkind⟩ | rfl := TokenLine.attributed_of_problem? hproblem
    · have hmem := ((TokenLine.mem_of_mem_ofTokens hline).1 _ htoken).1
      exact hinvalid _ hmem (hkind hunexpected)
    · cases hunexpected
  simp only [ofTokens, hend, if_true, hlacks, Bool.false_eq_true, if_false]

/-- The lines with tokens of a token list: the longest stretches without a line break in front of
    the first end of input. -/
def lines (tokens : List Token) : List (List Token) :=
  ((tokens.takeWhile (·.kind ≠ .endOfInput)).splitOnP (·.kind = .lineBreak)).filter (· ≠ [])

/-- A token list that ends in the end of the input is read as one outcome for each line with tokens,
    and the outcome is a statement exactly if the line has the form of that statement. Only empty
    tokens without meaning are excluded, which no text has. -/
theorem ofTokens_forms {tokens : List Token}
    (hend : tokens.getLast?.map Token.kind = some .endOfInput)
    (hinvalid : ∀ token ∈ tokens, token.kind = .invalid → token.value ≠ "") :
    ∃ outcomes, ofTokens tokens = .ok (ofOutcomes outcomes) ∧
      List.Forall₂ (fun line outcome => ∀ statement,
        outcome = .ok statement ↔ TokenLine.Form line statement) (lines tokens) outcomes := by
  refine ⟨_, ofTokens_eq_ok hend hinvalid, ?_⟩
  rw [lines, ← TokenLine.ofTokens_map_body (TokenLine.exists_end hend)]
  induction TokenLine.ofTokens tokens with
  | nil => exact .nil
  | cons line rest ih =>
    obtain ⟨body, stop⟩ := line
    cases body with
    | nil =>
      rw [List.filterMap_cons_none rfl, List.map_cons, List.filter_cons_of_neg (by simp)]
      exact ih
    | cons first others =>
      have houtcome : TokenLine.outcome? ⟨first :: others, stop⟩ =
          some (TokenLine.read stop first others) := rfl
      rw [List.filterMap_cons_some houtcome, List.map_cons, List.filter_cons_of_pos (by simp)]
      exact .cons (fun statement => TokenLine.read_eq_ok_iff) ih

/-- One line mentions a participant, and the other one has no meaning. -/
theorem ofTokens_forms_mention :
    let tokens : List Token := [⟨.name, "A", 1, 1, 0, 1⟩, ⟨.lineBreak, "\n", 1, 2, 1, 1⟩,
      ⟨.invalid, "%", 2, 1, 2, 1⟩, ⟨.endOfInput, "", 2, 2, 3, 0⟩]
    tokens.getLast?.map Token.kind = some .endOfInput ∧
      (∀ token ∈ tokens, token.kind = .invalid → token.value ≠ "") ∧
      ∃ outcomes, ofTokens tokens = .ok (ofOutcomes outcomes) ∧
        List.Forall₂ (fun line outcome => ∀ statement,
          outcome = .ok statement ↔ TokenLine.Form line statement) (lines tokens) outcomes := by
  intro tokens
  have hend : tokens.getLast?.map Token.kind = some .endOfInput := by decide
  have hinvalid : ∀ token ∈ tokens, token.kind = .invalid → token.value ≠ "" := by decide
  exact ⟨hend, hinvalid, ofTokens_forms hend hinvalid⟩

end Script

end SequenceChart
