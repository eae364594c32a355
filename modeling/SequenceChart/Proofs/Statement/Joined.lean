import SequenceChart.Proofs.Statement.Moved

namespace SequenceChart

/-- The token itself, or the line break that takes the place of the end of the input. -/
def Token.breakAtEnd (token : Token) : Token :=
  if token.kind = .endOfInput then token.asBreak else token

namespace TokenLine

theorem ofTokens_ne_nil {all : List Token} (hend : ∃ token ∈ all, token.kind = .endOfInput) :
    ofTokens all ≠ [] := by
  intro hlines
  have hbodies := ofTokens_map_body hend
  rw [hlines, List.map_nil] at hbodies
  exact List.splitOnP_ne_nil _ _ hbodies.symm

/-- When the end of the input turns into a line break, the lines in front of it stay, the last one
    ends in the break, and the lines of what comes after it follow. -/
theorem ofTokens_asBreak {body rest : List Token} {stop : Token}
    (hbody : ∀ token ∈ body, token.kind ≠ .endOfInput) (hstop : stop.kind = .endOfInput) :
    ofTokens (body ++ stop.asBreak :: rest) =
      (ofTokens (body ++ [stop])).map (mapTokens Token.breakAtEnd) ++ ofTokens rest := by
  induction body with
  | nil => simp [ofTokens, hstop, mapTokens, Token.breakAtEnd, Token.asBreak]
  | cons token body ih =>
    obtain ⟨hend, hbody⟩ := List.forall_mem_cons.1 hbody
    have hsame : token.breakAtEnd = token := if_neg hend
    have hlines : ofTokens (body ++ [stop]) ≠ [] := ofTokens_ne_nil ⟨stop, by simp, hstop⟩
    simp only [List.cons_append, ofTokens, ih hbody]
    split
    · contradiction
    · simp [mapTokens, hsame]
    · cases hcase : ofTokens (body ++ [stop]) with
      | nil => contradiction
      | cons line lines => simp [mapTokens, hsame]

end TokenLine

namespace Script

open TokenLine

theorem ofText_eq_ok (text : String) :
    ofText text = .ok ⟨(TokenLine.ofText text).filterMap statement?,
      (TokenLine.ofText text).filterMap problem?⟩ := by
  rw [ofText, ofTokens_eq_ok (Token.ofText_getLast?_kind text) fun token htoken hkind =>
    (Token.value_of_mem_ofText htoken).1 (.inl hkind), ofOutcomes_lines, TokenLine.ofText]

/-- What is said of a problem does not depend on the place of its token. -/
theorem message_mapToken {f : Token → Token} {problem : Diagnostic}
    (hkeeps : (f problem.token).kind = problem.token.kind ∧
      (f problem.token).value = problem.token.value) :
    (problem.mapToken f).message = problem.message := by
  simp only [Diagnostic.message, Diagnostic.mapToken, Diagnostic.firstCharacter, Token.describe,
    hkeeps.1, hkeeps.2]

/-- A problem of a text that is attributed to the end of the input complains that a name is missing
    there. Its message names the end, and would name the line break in its place. -/
theorem message_breakAtEnd {text : String} {body : List Token} {stop : Token}
    (htokens : Token.ofText text = body ++ [stop]) (hbody : ∀ token ∈ body, token.kind ≠ .endOfInput)
    {problem : Diagnostic}
    (hproblem : problem ∈ (TokenLine.ofText text).filterMap problem?)
    (hend : problem.token.kind = .endOfInput) :
    problem.token = stop ∧ ∃ words, problem.message = words ++ "end of input" ∧
      (problem.mapToken Token.breakAtEnd).message = words ++ "end of line" := by
  obtain ⟨line, hline, hproblem⟩ := List.mem_filterMap.1 hproblem
  obtain ⟨hinside, hlast⟩ := mem_of_mem_ofTokens hline
  obtain ⟨htoken, _⟩ | rfl := attributed_of_problem? hproblem
  · exact absurd hend (hinside _ htoken).2.2
  · rw [htokens] at hlast
    obtain hlast | hlast := List.mem_append.1 hlast
    · exact absurd hend (hbody _ hlast)
    · have hkind : line.stop.kind = .endOfInput := hend
      refine ⟨List.mem_singleton.1 hlast, "expected participant name, found ", ?_, ?_⟩
      · simp only [Diagnostic.message, Token.describe, hkind]
      · simp only [Diagnostic.message, Diagnostic.mapToken, Token.describe, Token.breakAtEnd, hkind,
          if_true, Token.asBreak]

/-- How two texts with a line break between them are read, given how each of them is read. The first
    one has tokens up to its end, and the tokens of the second one are found later. A problem at the
    end of the first text becomes one at the line break, and its message names that. -/
structure Linewise (first second : String) (body : List Token) (stop : Token)
    (later : Token → Token) (one two : Script) : Prop where
  later_eq : later =
    Token.shift ((Token.ofText first).countP (·.kind = .lineBreak) + 1) (first.length + 1)
  tokens_first : Token.ofText first = body ++ [stop]
  stop_kind : stop.kind = .endOfInput
  tokens_joined : Token.ofText (first ++ "\n" ++ second) =
    body ++ { stop with kind := .lineBreak, value := "\n", length := 1 } ::
      (Token.ofText second).map later
  read_first : ofText first = .ok one
  read_second : ofText second = .ok two
  read_joined : ofText (first ++ "\n" ++ second) = .ok
    ⟨one.statements ++ two.statements.map (Statement.mapTokens later),
      one.problems.map (Diagnostic.mapToken Token.breakAtEnd) ++
        two.problems.map (Diagnostic.mapToken later)⟩
  problem_kept : ∀ problem ∈ one.problems, problem.token.kind ≠ .endOfInput →
    problem.mapToken Token.breakAtEnd = problem
  problem_at_end : ∀ problem ∈ one.problems, problem.token.kind = .endOfInput →
    problem.token = stop ∧ ∃ words, problem.message = words ++ "end of input" ∧
      (problem.mapToken Token.breakAtEnd).message = words ++ "end of line"
  problem_later : ∀ problem ∈ two.problems, (problem.mapToken later).message = problem.message

/-- Lines are read on their own: nothing that was read before a line break has an influence on what
    comes after it, and nothing after it on what was read before. Only a carriage return at the end
    of the first text is excluded, since it would be part of the break. -/
theorem ofText_linewise (first second : String) (hfirst : first.toList.getLast? ≠ some '\r') :
    ∃ body stop later one two, Linewise first second body stop later one two := by
  obtain ⟨body, stop, htokens, hstop, hbody, hjoined⟩ := Token.ofText_append first second hfirst
  have hcount : (Token.ofText first).countP (·.kind = .lineBreak) =
      body.countP (·.kind = .lineBreak) := by
    rw [htokens, List.countP_append, List.countP_singleton]
    simp [hstop]
  obtain ⟨later, hlater⟩ : ∃ later, later = Token.shift
    ((Token.ofText first).countP (·.kind = .lineBreak) + 1) (first.length + 1) := ⟨_, rfl⟩
  rw [String.length_toList, ← hcount, ← hlater] at hjoined
  have hshift (token : Token) :
      (later token).kind = token.kind ∧ (later token).value = token.value := by
    rw [hlater]
    exact ⟨rfl, rfl⟩
  have hlines : TokenLine.ofText (first ++ "\n" ++ second) =
      (TokenLine.ofText first).map (mapTokens Token.breakAtEnd) ++
        (TokenLine.ofText second).map (mapTokens later) := by
    rw [TokenLine.ofText, hjoined, ofTokens_asBreak hbody hstop, ← htokens,
      ofTokens_map fun token _ => (hshift token).1, TokenLine.ofText, TokenLine.ofText]
  have hfixed : ∀ line ∈ TokenLine.ofText first, ∀ token ∈ line.body, token.breakAtEnd = token :=
    fun line hline token htoken => if_neg ((mem_of_mem_ofTokens hline).1 token htoken).2.2
  refine ⟨body, stop, later, _, _, hlater, htokens, hstop, hjoined, ofText_eq_ok first,
    ofText_eq_ok second, ?_, ?_, ?_, fun problem _ => message_mapToken (hshift _)⟩
  · have hstatements : ((TokenLine.ofText first).map (mapTokens Token.breakAtEnd)).filterMap
        statement? = (TokenLine.ofText first).filterMap statement? := by
      rw [List.filterMap_map]
      refine List.filterMap_congr fun line hline => statement?_congr ?_
      exact (List.map_congr_left (hfixed line hline)).trans (List.map_id _)
    have hfirstKeeps : ∀ line ∈ TokenLine.ofText first, Keeps Token.breakAtEnd line.body := by
      intro line hline token htoken
      rw [hfixed line hline token htoken]
      exact ⟨rfl, rfl⟩
    have hkeeps : ∀ line ∈ TokenLine.ofText second, Keeps later line.body :=
      fun line _ token _ => hshift token
    rw [ofText_eq_ok, hlines, List.filterMap_append, List.filterMap_append, hstatements,
      filterMap_problem?_map hfirstKeeps, filterMap_statement?_map hkeeps,
      filterMap_problem?_map hkeeps]
  · intro problem _ hend
    simp [Diagnostic.mapToken, Token.breakAtEnd, hend]
  · intro problem hproblem hend
    exact message_breakAtEnd htokens hbody hproblem hend

/-- The first text ends where the name of a target is expected. -/
theorem ofText_linewise_arrow : "A ->".toList.getLast? ≠ some '\r' ∧
    ∃ body stop later one two, Linewise "A ->" "B -> \"C" body stop later one two := by
  have hlast : "A ->".toList.getLast? ≠ some '\r' := by decide
  exact ⟨hlast, ofText_linewise _ _ hlast⟩

end Script

end SequenceChart
