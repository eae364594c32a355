import SequenceChart.Proofs.Statement.Lines

namespace SequenceChart

/-- The tokens that a statement holds, in the order of its line. Of a title it holds only the
    keyword. -/
def Statement.tokens : Statement → List Token
  | setTitle keyword _ => [keyword]
  | declare name label => name :: label.toList
  | mention name => [name]
  | signal source arrow target label => source :: arrow :: target :: label.toList
  | activation keyword name => [keyword, name]
  | openFragment keyword label => keyword :: label.toList
  | nextOperand keyword label => keyword :: label.toList
  | closeFragment keyword => [keyword]
  | unknown => []

namespace TokenLine

/-- A line has one outcome: nothing if it is empty, and otherwise either a statement made of its
    tokens or a problem with one of them, where the token that ends it counts too. -/
structure Answered (line : TokenLine) : Prop where
  empty : line.body = [] → line.statement? = none ∧ line.problem? = none
  filled : line.body ≠ [] → line.statement?.isSome ≠ line.problem?.isSome
  known : line.statement? ≠ some .unknown
  statement : ∀ statement ∈ line.statement?, statement.tokens.Sublist line.body
  problem : ∀ problem ∈ line.problem?, problem.token ∈ line.tokens

theorem Form.tokens_sublist {line : List Token} {statement : Statement} (hform : Form line statement) :
    statement.tokens.Sublist line := by
  cases hform with
  | title => exact .cons_cons _ (List.nil_sublist _)
  | declare => exact List.sublist_cons_self ..
  | declareAs => exact .cons _ (.cons_cons _ (List.sublist_cons_self ..))
  | labelledSignal => exact .cons_cons _ (.cons_cons _ (.cons_cons _ (List.sublist_cons_self ..)))
  | _ => exact .refl _

theorem Attributed.token_mem {line : TokenLine} {problem : Diagnostic}
    (hattributed : Attributed line.stop line.body problem) : problem.token ∈ line.tokens := by
  obtain ⟨htoken, _⟩ | rfl := hattributed
  · exact List.mem_append_left _ htoken
  · exact List.mem_append_right _ (List.mem_singleton_self _)

/-- Every line has one outcome, whatever tokens are on it. -/
theorem answered (line : TokenLine) : line.Answered := by
  refine ⟨fun hempty => ?_, fun hfilled => ?_, fun hunknown => ?_, fun statement hstatement => ?_,
    fun problem hproblem => ?_⟩
  · simp [statement?, problem?, outcome?, hempty]
  · obtain ⟨first, rest, hbody⟩ := List.exists_cons_of_ne_nil hfilled
    cases hread : read line.stop first rest <;>
      simp [statement?, problem?, outcome?, hbody, hread]
  · have hform := form_of_statement? hunknown
    generalize line.body = body at hform
    cases hform
  · exact (form_of_statement? hstatement).tokens_sublist
  · exact (attributed_of_problem? hproblem).token_mem

/-- The lines of a token list make up its start, with the tokens that end them. -/
theorem flatMap_tokens_ofTokens (all : List Token) : (ofTokens all).flatMap tokens <+: all := by
  induction all with
  | nil => exact List.nil_prefix
  | cons first rest ih =>
    unfold ofTokens
    split
    · exact ⟨rest, rfl⟩
    · exact (List.prefix_cons_inj first).2 ih
    · split
      · exact List.nil_prefix
      · next line lines hlines =>
        rw [hlines] at ih
        exact (List.prefix_cons_inj first).2 ih

/-- The lines of a token list: the stretches between line breaks in front of the first end of the
    input. With the tokens that end them they make up its start. -/
structure Splits (tokens : List Token) (lines : List TokenLine) : Prop where
  bodies : lines.map body =
    (tokens.takeWhile (·.kind ≠ .endOfInput)).splitOnP (·.kind = .lineBreak)
  source : lines.flatMap TokenLine.tokens <+: tokens

theorem splits_ofTokens {tokens : List Token}
    (hend : tokens.getLast?.map Token.kind = some .endOfInput) : Splits tokens (ofTokens tokens) where
  bodies := ofTokens_map_body (exists_end hend)
  source := flatMap_tokens_ofTokens tokens

end TokenLine

namespace Script

/-- A script with one outcome for each line that has tokens and none for an empty one, in the order of
    the lines. -/
structure Answers (tokens : List Token) (lines : List TokenLine) (script : Script) : Prop where
  splits : TokenLine.Splits tokens lines
  answered : ∀ line ∈ lines, line.Answered
  statements : script.statements = lines.filterMap TokenLine.statement?
  problems : script.problems = lines.filterMap TokenLine.problem?

/-- A token list that ends in the end of the input is read, line by line. Reading fails at most for want
    of characters in a token without meaning. -/
theorem ofTokens_answered {tokens : List Token}
    (hend : tokens.getLast?.map Token.kind = some .endOfInput) :
    ((∀ token ∈ tokens, token.kind = .invalid → token.value ≠ "") →
      ∃ lines script, ofTokens tokens = .ok script ∧ script.Answers tokens lines) ∧
      ∀ error, ofTokens tokens = .error error → error = .emptyToken := by
  refine ⟨fun hinvalid => ?_, fun error herror => ?_⟩
  · have hread := ofTokens_eq_ok hend hinvalid
    rw [ofOutcomes_lines] at hread
    exact ⟨TokenLine.ofTokens tokens, _, hread, TokenLine.splits_ofTokens hend,
      fun line _ => line.answered, rfl, rfl⟩
  · simp only [ofTokens, hend, if_true] at herror
    split at herror
    · exact (Except.error.inj herror).symm
    · cases herror

/-- A mention, an empty line and a line without meaning. What stands behind the first end of the
    input belongs to no line. -/
theorem ofTokens_answered_twoEnds :
    let mention : Token := ⟨.name, "A", 1, 1, 0, 1⟩
    let percent : Token := ⟨.invalid, "%", 3, 1, 3, 1⟩
    let tokens : List Token := [mention, ⟨.lineBreak, "\n", 1, 2, 1, 1⟩,
      ⟨.lineBreak, "\n", 2, 1, 2, 1⟩, percent, ⟨.endOfInput, "", 3, 2, 4, 0⟩,
      ⟨.arrow, "->", 3, 2, 4, 2⟩, ⟨.endOfInput, "", 3, 4, 6, 0⟩]
    tokens.getLast?.map Token.kind = some .endOfInput ∧
      (∀ token ∈ tokens, token.kind = .invalid → token.value ≠ "") ∧
      ∃ lines script, ofTokens tokens = .ok script ∧ script.Answers tokens lines ∧
        script.statements = [.mention mention] ∧ script.problems.map Diagnostic.token = [percent] := by
  intro mention percent tokens
  have hend : tokens.getLast?.map Token.kind = some .endOfInput := by decide
  have hinvalid : ∀ token ∈ tokens, token.kind = .invalid → token.value ≠ "" := by decide
  obtain ⟨lines, script, hscript, hanswers⟩ := (ofTokens_answered hend).1 hinvalid
  have houtcome : (ofTokens tokens).map (fun script =>
      (script.statements, script.problems.map Diagnostic.token)) = .ok ([.mention mention], [percent]) := by
    cbv
  rw [hscript] at houtcome
  obtain ⟨hstatements, hproblems⟩ := Prod.mk.inj (Except.ok.inj houtcome)
  exact ⟨hend, hinvalid, lines, script, hscript, hanswers, hstatements, hproblems⟩

end Script

end SequenceChart
