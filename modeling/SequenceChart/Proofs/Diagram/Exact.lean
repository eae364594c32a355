import SequenceChart.Diagram.OfText
import SequenceChart.Proofs.Diagram.Faults
import SequenceChart.Proofs.Statement.Joined

namespace SequenceChart

namespace TokenLine

/-- The tokens of each line have its number, when the lines are counted from a given number on. -/
def Numbered : Int → List TokenLine → Prop
  | _, [] => True
  | number, line :: rest =>
    (∀ token ∈ line.tokens, token.line = number) ∧ Numbered (number + 1) rest

theorem ofTokens_numbered (line start : Nat) (source : List Char) (rest : List (List Char)) :
    Numbered line (ofTokens (Token.ofLines line start source rest)) := by
  have htokens {line start : Nat} {source : List Char} (kind : TokenKind) (value : String)
      (length : Nat) : ∀ token ∈ tokens ⟨Token.ofLine line start source,
        Token.ending kind value line start source length⟩, token.line = line := by
    intro token htoken
    obtain htoken | htoken := List.mem_append.1 htoken
    · exact (Token.reads_of_mem_ofLine htoken).1
    · rw [List.mem_singleton.1 htoken]
      rfl
  induction rest generalizing line start source with
  | nil =>
    rw [ofTokens_ofLines_nil]
    exact ⟨htokens _ _ _, trivial⟩
  | cons following rest ih =>
    rw [ofTokens_ofLines_cons]
    refine ⟨htokens _ _ _, ?_⟩
    simpa [Token.ending] using ih (line + 1) (start + source.length + 1) following

theorem Numbered.line_eq {number : Int} {before after : List TokenLine} {line : TokenLine}
    (hnumbered : Numbered number (before ++ line :: after)) {token : Token}
    (htoken : token ∈ line.tokens) : token.line = number + before.length := by
  induction before generalizing number with
  | nil => simpa using hnumbered.1 token htoken
  | cons first before ih =>
    have hline := ih hnumbered.2
    rw [hline, List.length_cons]
    omega

/-- At most one thing is reported of a line, so that the reports of the lines have increasing line
    numbers. -/
theorem faults_pairwise {number : Int} {lines : List TokenLine} (hnumbered : Numbered number lines)
    (hwords : ∀ line ∈ lines, line.Spelled) (before : List TokenLine) :
    (faults before lines).Pairwise (fun earlier later => earlier.token.line < later.token.line) := by
  induction lines generalizing number before with
  | nil => exact .nil
  | cons line rest ih =>
    obtain ⟨hline, hwords⟩ := List.forall_mem_cons.1 hwords
    rw [faults, List.pairwise_append]
    refine ⟨?_, ih hnumbered.2 hwords _, ?_⟩
    · cases fault? before line rest <;> simp
    · intro earlier hearlier later hlater
      have hfirst := hnumbered.1 _ (token_mem_of_fault ((fault?_eq_some_iff hline).1
        (Option.mem_toList.1 hearlier)))
      obtain ⟨front, other, back, rfl, hfault⟩ := mem_faults.1 hlater
      have hother := hwords other (by simp)
      have hsecond := hnumbered.2.line_eq (token_mem_of_fault ((fault?_eq_some_iff hother).1 hfault))
      omega

end TokenLine

/-- Sorting problems on different lines gives them in the order of their lines. -/
theorem Diagnostic.mergeSort_precedes {problems sorted : List Diagnostic} (hperm : problems.Perm sorted)
    (hlines : sorted.Pairwise fun earlier later => earlier.token.line < later.token.line) :
    problems.mergeSort precedes = sorted := by
  have hprecedes : (problems.mergeSort precedes).Pairwise fun a b => precedes a b := by
    apply List.pairwise_mergeSort
    · intro a b c
      simp only [precedes, Bool.or_eq_true, Bool.and_eq_true, decide_eq_true_eq]
      omega
    · intro a b
      simp only [precedes, Bool.or_eq_true, Bool.and_eq_true, decide_eq_true_eq]
      omega
  have hsame : (problems.mergeSort precedes).Perm sorted := (List.mergeSort_perm _ _).trans hperm
  -- Sorting keeps lines apart, and an order in which no lines are equal is strict.
  have hdiffer : (problems.mergeSort precedes).Pairwise fun a b => a.token.line ≠ b.token.line :=
    (hsame.pairwise_iff fun h => Ne.symm h).2 (hlines.imp fun h => by omega)
  have hincreasing : (problems.mergeSort precedes).Pairwise
      fun a b => a.token.line < b.token.line := by
    refine hprecedes.imp₂ (fun a b hprecedes hdiffer => ?_) hdiffer
    simp only [precedes, Bool.or_eq_true, Bool.and_eq_true, decide_eq_true_eq] at hprecedes
    omega
  exact hsame.eq_of_pairwise (fun a b _ _ hab hba => by omega) hincreasing hlines

namespace Diagram

open TokenLine

theorem spelled_of_mem {text : String} {line : TokenLine}
    (hline : line ∈ TokenLine.ofText text) : line.Spelled := by
  intro token htoken
  have hmem := ((mem_of_mem_ofTokens hline).1 token htoken).1
  exact (Token.value_of_mem_ofText hmem).2

theorem faults_ofText_pairwise (text : String) :
    (faults [] (TokenLine.ofText text)).Pairwise
      fun earlier later => earlier.token.line < later.token.line :=
  faults_pairwise (ofTokens_numbered 1 0 _ _) (fun _ hline => spelled_of_mem hline) []

theorem statements_complete (text : String) :
    ∀ statement ∈ statements (TokenLine.ofText text), statement.Complete := by
  intro statement hstatement
  obtain ⟨line, _, hstatement⟩ := List.mem_filterMap.1 hstatement
  exact (form_of_statement? hstatement).complete

/-- Every text gives the diagram that its statements make, and what is reported of the text is what
    is reported of its lines, in their order. -/
theorem ofText_eq_ok (text : String) :
    ofText text = .ok
      (((statements (TokenLine.ofText text)).foldl Builder.after (Builder.ofDiagram {})).diagram,
        faults [] (TokenLine.ofText text)) := by
  have hbuild := build_eq_ok {} (statements_complete text)
  have hreversed := List.reverse_perm (Statement.unclosed (statements (TokenLine.ofText text)))
  have hperm := ((hreversed.append_left _).append_left _).trans
    (faults_perm [] (TokenLine.ofText text))
  have hsort := Diagnostic.mergeSort_precedes hperm (faults_ofText_pairwise text)
  simp only [statements, List.filterMap_nil] at hbuild hsort ⊢
  simp only [ofText, Script.ofText_eq_ok, Except.mapError, bind, Except.bind, hbuild, hsort]
  rfl

/-- No stage refuses what the stage in front of it makes of a text. The tokens end in the end of the
    input, and what could not be read has a first character to be named. The builder is open, and
    does what it is asked for, at every statement. -/
theorem ofText_unrefused (text : String) :
    (Token.ofText text).getLast?.map Token.kind = some .endOfInput ∧
      (∀ token ∈ Token.ofText text, token.kind = .invalid → token.value ≠ "") ∧
      ∃ script, Script.ofText text = .ok script ∧
        (∀ statement ∈ script.statements, statement.Complete) ∧
        (∀ front back, script.statements = front ++ back → ∃ builder,
          (Building.applyAll front).run.run (Builder.ofDiagram {}) = (.ok (), builder) ∧
            builder.isFinished = false) ∧
        ∃ diagram reports, Diagram.build script.statements {} = .ok (diagram, reports) ∧
          ofText text = .ok (diagram, (script.problems ++ reports).mergeSort Diagnostic.precedes) := by
  have hcomplete := statements_complete text
  have hbuild := build_eq_ok {} hcomplete
  refine ⟨Token.ofText_getLast?_kind text, fun token htoken hkind =>
    (Token.value_of_mem_ofText htoken).1 (.inl hkind), _, Script.ofText_eq_ok text, hcomplete, ?_,
    _, _, hbuild, ?_⟩
  · intro front back hstatements
    have hfront : ∀ statement ∈ front, statement.Complete := by
      intro statement hstatement
      apply hcomplete
      change statements (TokenLine.ofText text) = front ++ back at hstatements
      rw [hstatements]
      exact List.mem_append_left back hstatement
    exact ⟨_, Building.applyAll_run rfl hfront, Builder.foldl_after_isFinished {} front⟩
  · simp only [statements] at hbuild
    simp only [ofText, Script.ofText_eq_ok, Except.mapError, bind, Except.bind, hbuild]
    rfl

/-- What is reported of a text is exactly what is wrong with its lines: at most one thing of each
    line, in the order of the lines, and attributed to a token of the line. -/
theorem ofText_faults (text : String) :
    ∃ diagram problems, ofText text = .ok (diagram, problems) ∧
      problems.Pairwise (fun earlier later => earlier.token.line < later.token.line) ∧
      (∀ problem ∈ problems, ∃ before line after,
        TokenLine.ofText text = before ++ line :: after ∧ problem.token ∈ line.tokens) ∧
      ∀ before line after, TokenLine.ofText text = before ++ line :: after →
        (∀ token ∈ line.tokens, token.line = (before.length : Int) + 1) ∧
        ∀ problem, problem ∈ problems ∧ problem.token.line = (before.length : Int) + 1 ↔
          Fault before line after problem := by
  have hnumbered : Numbered 1 (TokenLine.ofText text) := ofTokens_numbered 1 0 _ _
  have hfound (problem : Diagnostic) : problem ∈ faults [] (TokenLine.ofText text) ↔
      ∃ before line after, TokenLine.ofText text = before ++ line :: after ∧
        Fault before line after problem := by
    rw [mem_faults]
    refine exists_congr fun before => exists_congr fun line => exists_congr fun after =>
      and_congr_right fun hlines => ?_
    have hline : line ∈ TokenLine.ofText text := by simp [hlines]
    exact fault?_eq_some_iff (spelled_of_mem hline)
  refine ⟨_, _, ofText_eq_ok text, faults_ofText_pairwise text, ?_, ?_⟩
  · intro problem hproblem
    obtain ⟨before, line, after, hlines, hfault⟩ := (hfound problem).1 hproblem
    exact ⟨before, line, after, hlines, token_mem_of_fault hfault⟩
  · intro before line after hlines
    have hline {token : Token} (htoken : token ∈ line.tokens) :
        token.line = (before.length : Int) + 1 := by
      rw [hlines] at hnumbered
      rw [hnumbered.line_eq htoken, Int.add_comm]
    refine ⟨fun token htoken => hline htoken, fun problem => ⟨?_, fun hfault => ?_⟩⟩
    · rintro ⟨hproblem, hnumber⟩
      obtain ⟨front, other, back, hothers, hfault⟩ := (hfound problem).1 hproblem
      have hother : problem.token.line = 1 + front.length := by
        rw [hothers] at hnumbered
        exact hnumbered.line_eq (token_mem_of_fault hfault)
      -- The number of a line is the number of lines in front of it, so both are the same line.
      have hlength : before.length = front.length := by omega
      obtain ⟨rfl, hrest⟩ := List.append_inj (hlines.symm.trans hothers) hlength
      cases hrest
      exact hfault
    · exact ⟨(hfound problem).2 ⟨before, line, after, hlines, hfault⟩,
        hline (token_mem_of_fault hfault)⟩

end Diagram

end SequenceChart
