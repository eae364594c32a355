import SequenceChart.Proofs.Statement.Joined
import SequenceChart.Proofs.Statement.Reader
import SequenceChart.Proofs.Token.Progress

namespace SequenceChart

namespace Reader

open TokenLine

/-- A token list up to its first end of the input, line by line. -/
inductive Lines : List Token → Prop where
  | last {body after : List Token} {stop : Token} (hline : OnLine body stop)
      (hstop : stop.kind = .endOfInput) : Lines (body ++ stop :: after)
  | cons {body after : List Token} {stop : Token} (hline : OnLine body stop)
      (hstop : stop.kind = .lineBreak) (tail : Lines after) : Lines (body ++ stop :: after)

/-- A token list has lines if it has an end of the input. -/
theorem Lines.of_exists_end {tokens : List Token} (hend : ∃ token ∈ tokens, token.kind = .endOfInput)
    (hfilled : ∀ token ∈ tokens, token.kind = .invalid → token.value ≠ "") : Lines tokens := by
  induction tokens with
  | nil => simp at hend
  | cons first rest ih =>
    have hempty (hfirst : first.EndsLine) : OnLine [] first := ⟨by simp, by simp, hfirst⟩
    by_cases hstop : first.kind = .endOfInput
    · exact .last (hempty (.inr hstop)) hstop
    have hrest : Lines rest := by
      refine ih ?_ fun token htoken => hfilled token (List.mem_cons_of_mem _ htoken)
      obtain ⟨token, htoken, hkind⟩ := hend
      obtain rfl | htoken := List.mem_cons.1 htoken
      · exact absurd hkind hstop
      · exact ⟨token, htoken, hkind⟩
    by_cases hbreak : first.kind = .lineBreak
    · exact .cons (hempty (.inl hbreak)) hbreak hrest
    have hlonger {body : List Token} {stop : Token} (hline : OnLine body stop) :
        OnLine (first :: body) stop :=
      ⟨List.forall_mem_cons.2 ⟨not_or.2 ⟨hbreak, hstop⟩, hline.inside⟩,
        List.forall_mem_cons.2 ⟨hfilled first List.mem_cons_self, hline.filled⟩, hline.ended⟩
    cases hrest with
    | last hline hstop => exact .last (hlonger hline) hstop
    | cons hline hstop tail => exact .cons (hlonger hline) hstop tail

section Pass

variable {reader : Reader} {body after : List Token} {stop : Token}

theorem skipToLineEnd_eq (hline : OnLine body stop) :
    skipToLineEnd (body ++ stop :: after) = .ok () (stop :: after) := by
  induction body with
  | nil => rw [List.nil_append, skipToLineEnd, if_pos hline.ended]
  | cons token body ih =>
    rw [List.cons_append, skipToLineEnd, if_neg (hline.inside token List.mem_cons_self)]
    exact ih hline.tail

/-- The state behind a line, whose outcome is recorded if it has one. -/
def record (reader : Reader) (line : TokenLine) (rest : List Token) : Reader :=
  ⟨rest, reader.statements ++ line.statement?.toList, reader.problems ++ line.problem?.toList⟩

/-- A pass reads a line with tokens up to the one that ends it. -/
theorem pass_line (hline : OnLine body stop) (hbody : body ≠ [])
    (hrest : reader.rest = body ++ stop :: after) :
    reader.pass = .ok (reader.record ⟨body, stop⟩ (stop :: after)) := by
  obtain ⟨first, rest, rfl⟩ := List.exists_cons_of_ne_nil hbody
  obtain ⟨hbreak, hstop⟩ := not_or.1 (hline.inside first List.mem_cons_self)
  have hread : ReadsAs parseLine stop after (first :: rest) (read stop first rest) :=
    .parseLine hline
  simp only [pass, hrest, List.cons_append, if_neg hstop, if_neg hbreak]
  cases houtcome : read stop first rest with
  | ok statement =>
    rw [houtcome] at hread
    have hparse : parseLine (first :: (rest ++ stop :: after)) = .ok statement (stop :: after) := hread
    simp [hparse, record, statement?, problem?, outcome?, houtcome]
  | error problem =>
    rw [houtcome] at hread
    obtain ⟨left, hleft, hhalt⟩ := hread
    have hparse : parseLine (first :: (rest ++ stop :: after)) =
        .error (.problem problem) (left ++ stop :: after) := hhalt
    have hskip : skipToLineEnd (left ++ stop :: after) = .ok () (stop :: after) :=
      skipToLineEnd_eq (hline.suffix hleft)
    simp [hparse, hskip, record, statement?, problem?, outcome?, houtcome]

theorem pass_lineBreak (hstop : stop.kind = .lineBreak) (hrest : reader.rest = stop :: after) :
    reader.pass = .ok { reader with rest := after } := by
  simp [pass, hrest, hstop]

theorem pass_atEnd (hend : reader.AtEnd) : reader.pass = .ok reader := by
  obtain ⟨stop, hstop, hkind⟩ := Option.map_eq_some_iff.1 hend
  obtain ⟨after, hrest⟩ := List.head?_eq_some_iff.1 hstop
  simp [pass, hrest, hkind]

/-- A pass in front of the end of the input moves on, and never beyond it. -/
theorem pass_advances (hlines : Lines reader.rest) (hend : ¬ reader.AtEnd) :
    ∃ later, reader.pass = .ok later ∧ reader.Advances later ∧ Lines later.rest := by
  have hinside {body : List Token} {stop : Token} (hline : OnLine body stop) :
      ∀ token ∈ body, token.kind ≠ .endOfInput :=
    fun token htoken hkind => hline.inside token htoken (.inr hkind)
  generalize hrest : reader.rest = tokens at hlines
  cases hlines with
  | @last body after stop hline hstop =>
    have hbody : body ≠ [] := by
      rintro rfl
      exact hend (by simp [AtEnd, hrest, hstop])
    refine ⟨_, pass_line hline hbody hrest, ⟨body, hbody, hrest, hinside hline⟩, ?_⟩
    exact .last (hline.suffix List.nil_suffix) hstop
  | @cons body after stop hline hstop tail =>
    by_cases hbody : body = []
    · subst hbody
      refine ⟨_, pass_lineBreak hstop hrest, ⟨[stop], List.cons_ne_nil _ _, hrest, ?_⟩, tail⟩
      intro token htoken
      rw [List.mem_singleton.1 htoken, hstop]
      exact TokenKind.noConfusion
    · refine ⟨_, pass_line hline hbody hrest, ⟨body, hbody, hrest, hinside hline⟩, ?_⟩
      exact .cons (hline.suffix List.nil_suffix) hstop tail

end Pass

section Run

variable {tokens : List Token}

theorem passes_succ (n : Nat) (reader : Reader) : passes (n + 1) reader = passes n reader >>= pass :=
  Function.iterate_succ_apply' ..

theorem passes_add {n : Nat} {reader later : Reader} (hpasses : passes n reader = .ok later) (m : Nat) :
    passes (m + n) reader = passes m later := by
  rw [passes, Function.iterate_add_apply]
  exact congrArg _ hpasses

/-- No pass fails, and each one stops at the start of a line or at its end. -/
theorem Lines.passes_ok (hlines : Lines tokens) (n : Nat) :
    ∃ reader, passes n (start tokens) = .ok reader ∧ Lines reader.rest := by
  induction n with
  | zero => exact ⟨start tokens, rfl, hlines⟩
  | succ n ih =>
    obtain ⟨reader, hreader, hlines⟩ := ih
    rw [passes_succ, hreader]
    by_cases hend : reader.AtEnd
    · exact ⟨reader, pass_atEnd hend, hlines⟩
    · obtain ⟨later, hlater, -, hlines⟩ := pass_advances hlines hend
      exact ⟨later, hlater, hlines⟩

/-- One pass reads a line with tokens, and none an empty one. -/
theorem exists_passes_line {reader : Reader} {body after : List Token} {stop : Token}
    (hline : OnLine body stop) (hrest : reader.rest = body ++ stop :: after) :
    ∃ n ≤ body.length, passes n reader = .ok (reader.record ⟨body, stop⟩ (stop :: after)) := by
  by_cases hbody : body = []
  · subst hbody
    refine ⟨0, Nat.le_refl _, ?_⟩
    obtain ⟨rest, statements, problems⟩ := reader
    obtain rfl : rest = stop :: after := hrest
    simp [passes, record, statement?, problem?, outcome?]
  · exact ⟨1, List.length_pos_iff.2 hbody, pass_line hline hbody hrest⟩

theorem ofTokens_onLine {body after : List Token} {stop : Token} (hline : OnLine body stop) :
    ofTokens (body ++ stop :: after) =
      ⟨body, stop⟩ :: if stop.kind = .endOfInput then [] else ofTokens after :=
  ofTokens_append (fun token htoken => not_or.1 (hline.inside token htoken)) hline.ended

/-- Passes read the lines of a token list one after the other, up to its first end of the input. -/
theorem Lines.exists_passes (hlines : Lines tokens) {reader : Reader} (hrest : reader.rest = tokens) :
    ∃ n ≤ tokens.length, ∃ later, passes n reader = .ok later ∧ later.AtEnd ∧
      later.statements = reader.statements ++ (ofTokens tokens).filterMap statement? ∧
      later.problems = reader.problems ++ (ofTokens tokens).filterMap problem? := by
  induction hlines generalizing reader with
  | @last body after stop hline hstop =>
    obtain ⟨n, hn, hpasses⟩ := exists_passes_line hline hrest
    have hlines : ofTokens (body ++ stop :: after) = [⟨body, stop⟩] := by
      rw [ofTokens_onLine hline, if_pos hstop]
    refine ⟨n, ?_, _, hpasses, by simp [AtEnd, record, hstop], ?_, ?_⟩
    · rw [List.length_append]
      omega
    · rw [hlines, List.filterMap_eq_flatMap_toList, List.flatMap_singleton, record]
    · rw [hlines, List.filterMap_eq_flatMap_toList, List.flatMap_singleton, record]
  | @cons body after stop hline hstop tail ih =>
    obtain ⟨n, hn, hpasses⟩ := exists_passes_line hline hrest
    have hlines : ofTokens (body ++ stop :: after) = ⟨body, stop⟩ :: ofTokens after := by
      rw [ofTokens_onLine hline, if_neg (by simp [hstop])]
    have hbreak : (reader.record ⟨body, stop⟩ (stop :: after)).pass =
        .ok (reader.record ⟨body, stop⟩ after) := pass_lineBreak hstop rfl
    have hnext : passes (n + 1) reader = .ok (reader.record ⟨body, stop⟩ after) := by
      rw [passes_succ, hpasses]
      exact hbreak
    obtain ⟨m, hm, later, hlater, hend, hstatements, hproblems⟩ :=
      @ih (reader.record ⟨body, stop⟩ after) rfl
    refine ⟨m + (n + 1), ?_, later, ?_, hend, ?_, ?_⟩
    · simp only [List.length_append, List.length_cons]
      omega
    · rw [passes_add hnext, hlater]
    · rw [hstatements, hlines, List.filterMap_eq_flatMap_toList, List.filterMap_eq_flatMap_toList,
        List.flatMap_cons, record, List.append_assoc]
    · rw [hproblems, hlines, List.filterMap_eq_flatMap_toList, List.filterMap_eq_flatMap_toList,
        List.flatMap_cons, record, List.append_assoc]

/-- Every pass over a token list moves on and none beyond an end of the input, so that the loop ends
    there, with what the lines of the list make. -/
structure Progress (tokens : List Token) : Prop where
  advances : ∀ n, ∃ reader, passes n (start tokens) = .ok reader ∧
    (¬ reader.AtEnd → ∃ later, reader.pass = .ok later ∧ reader.Advances later)
  ends : ∃ n ≤ tokens.length, ∃ reader, passes n (start tokens) = .ok reader ∧ reader.AtEnd ∧
    Script.ofTokens tokens = .ok ⟨reader.statements, reader.problems⟩

theorem Progress.of_filled (hend : tokens.getLast?.map Token.kind = some .endOfInput)
    (hfilled : ∀ token ∈ tokens, token.kind = .invalid → token.value ≠ "") : Progress tokens := by
  have hlines : Lines tokens := .of_exists_end (exists_end hend) hfilled
  refine ⟨fun n => ?_, ?_⟩
  · obtain ⟨reader, hreader, hlines⟩ := hlines.passes_ok n
    refine ⟨reader, hreader, fun hend => ?_⟩
    obtain ⟨later, hlater, hadvances, -⟩ := pass_advances hlines hend
    exact ⟨later, hlater, hadvances⟩
  · obtain ⟨n, hn, reader, hreader, hatEnd, hstatements, hproblems⟩ :=
      @Lines.exists_passes _ hlines (start tokens) rfl
    refine ⟨n, hn, reader, hreader, hatEnd, ?_⟩
    rw [Script.ofTokens_eq_ok hend hfilled, Script.ofOutcomes_lines, hstatements, hproblems]
    rfl

end Run

end Reader

/-- Reading a text and reading a token list both move on in every pass, whatever the text, and
    whatever the tokens in front of an end of the input. Only a token without meaning and without
    characters is excluded, which no text has. -/
theorem loops_progress (text : String) {tokens : List Token}
    (hend : tokens.getLast?.map Token.kind = some .endOfInput)
    (hfilled : ∀ token ∈ tokens, token.kind = .invalid → token.value ≠ "") :
    Scanner.Progress text ∧ Reader.Progress (Token.ofText text) ∧ Reader.Progress tokens := by
  refine ⟨.of_text text, .of_filled (Token.ofText_getLast?_kind text) fun token htoken hkind => ?_,
    .of_filled hend hfilled⟩
  exact (Token.value_of_mem_ofText htoken).1 (.inl hkind)

/-- The text has a slash that starts no comment, a lone carriage return and a quote mark that is never
    closed. The tokens start with one that no rule expects, and go on behind an end of the input. -/
theorem loops_progress_stray :
    let tokens : List Token := [⟨.invalid, "%", 1, 1, 0, 1⟩, ⟨.name, "A", 1, 2, 1, 1⟩,
      ⟨.endOfInput, "", 1, 3, 2, 0⟩, ⟨.arrow, "->", 1, 3, 2, 2⟩, ⟨.endOfInput, "", 1, 5, 4, 0⟩]
    tokens.getLast?.map Token.kind = some .endOfInput ∧
      (∀ token ∈ tokens, token.kind = .invalid → token.value ≠ "") ∧
      Scanner.Progress "/\rA ->\"B//" ∧ Reader.Progress (Token.ofText "/\rA ->\"B//") ∧
      Reader.Progress tokens := by
  intro tokens
  have hend : tokens.getLast?.map Token.kind = some .endOfInput := by decide
  have hfilled : ∀ token ∈ tokens, token.kind = .invalid → token.value ≠ "" := by decide
  exact ⟨hend, hfilled, loops_progress _ hend hfilled⟩

end SequenceChart
