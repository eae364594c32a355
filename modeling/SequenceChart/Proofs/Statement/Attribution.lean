import SequenceChart.Proofs.Statement.Grammar

namespace SequenceChart

namespace TokenLine

/-- A problem with a line is attributed to one of its tokens. Only a missing name may be attributed
    to the token that ends it instead, and unknown characters only to a token that holds some. -/
def Attributed (stop : Token) (line : List Token) (problem : Diagnostic) : Prop :=
  problem.token ∈ line ∧ (problem.problem = .unexpectedCharacter → problem.token.kind = .invalid) ∨
    problem = ⟨stop, .nameExpected⟩

theorem Attributed.cons {stop : Token} {line : List Token} {problem : Diagnostic}
    (hattributed : Attributed stop line problem) (token : Token) :
    Attributed stop (token :: line) problem :=
  hattributed.imp (fun h => ⟨List.mem_cons_of_mem _ h.1, h.2⟩) id

theorem unexpected_attributed (stop : Token) {token : Token} {line : List Token}
    (htoken : token ∈ line) : Attributed stop line (unexpected token) := by
  unfold unexpected
  split
  · next hinvalid => split <;> exact .inl ⟨htoken, fun _ => hinvalid⟩
  · exact .inl ⟨htoken, fun h => by cases h⟩

theorem finish_attributed (stop : Token) {statement : Statement} {line : List Token}
    {problem : Diagnostic} (hread : finish statement line = .error problem) :
    Attributed stop line problem := by
  cases line with
  | nil => cases hread
  | cons token rest =>
    cases hread
    exact .inl ⟨List.mem_cons_self, fun h => by cases h⟩

theorem takeName_attributed {stop : Token} {line : List Token} {problem : Diagnostic}
    (hread : takeName stop line = .error problem) : Attributed stop line problem := by
  cases line with
  | nil =>
    cases hread
    exact .inr rfl
  | cons token rest =>
    simp only [takeName] at hread
    split at hread
    · cases hread
    split at hread
    · cases hread
      exact unexpected_attributed stop List.mem_cons_self
    · cases hread
      exact .inl ⟨List.mem_cons_self, fun h => by cases h⟩

/-- A step that takes a name off a line leaves its problems with the line, and so do the steps on
    what follows the name. -/
theorem takeName_bind_attributed {stop : Token} {line : List Token} {problem : Diagnostic}
    {next : Token × List Token → Except Diagnostic Statement}
    (hnext : ∀ name rest, line = name :: rest → next (name, rest) = .error problem →
      Attributed stop line problem)
    (hread : (takeName stop line >>= next) = .error problem) : Attributed stop line problem := by
  cases htaken : takeName stop line with
  | error other =>
    rw [htaken] at hread
    cases hread
    exact takeName_attributed htaken
  | ok taken =>
    rw [htaken] at hread
    exact hnext taken.1 taken.2 (takeName_eq_ok_iff.1 htaken).1 hread

theorem readTitle_attributed (stop : Token) {keyword : Token} {rest : List Token}
    {problem : Diagnostic} (hread : readTitle keyword rest = .error problem) :
    Attributed stop (keyword :: rest) problem := by
  unfold readTitle at hread
  obtain ⟨text, tail, rfl, _, htake⟩ | ⟨_, htake⟩ := take?_cases .text rest
  · simp only [htake] at hread
    exact ((finish_attributed stop hread).cons _).cons _
  · simp only [htake] at hread
    cases hread
    exact .inl ⟨List.mem_cons_self, fun h => by cases h⟩

theorem finish_take?_attributed (stop : Token) (make : Option Token → Statement) {line : List Token}
    {problem : Diagnostic}
    (hread : finish (make (take? .text line).1) (take? .text line).2 = .error problem) :
    Attributed stop line problem := by
  obtain ⟨text, tail, rfl, _, htake⟩ | ⟨_, htake⟩ := take?_cases .text line
  · rw [htake] at hread
    exact (finish_attributed stop hread).cons _
  · rw [htake] at hread
    exact finish_attributed stop hread

theorem readParticipant_attributed {stop : Token} {rest : List Token} {problem : Diagnostic}
    (hread : readParticipant stop rest = .error problem) : Attributed stop rest problem := by
  refine takeName_bind_attributed (fun name tail hline hrest => ?_) hread
  subst hline
  obtain ⟨as, tail, rfl, _, htake⟩ | ⟨_, htake⟩ := take?_cases (.keyword .label) tail
  · simp only [htake] at hrest
    obtain ⟨label, tail, rfl, _, htake⟩ | ⟨_, htake⟩ := take?_cases .text tail
    · simp only [htake] at hrest
      exact (((finish_attributed stop hrest).cons _).cons _).cons _
    · simp only [htake] at hrest
      cases hrest
      exact .inl ⟨by simp, fun h => by cases h⟩
  · simp only [htake] at hrest
    exact (finish_attributed stop hrest).cons _

theorem readTarget_attributed {stop source arrow : Token} {rest : List Token} {problem : Diagnostic}
    (hread : readTarget stop source arrow rest = .error problem) : Attributed stop rest problem := by
  refine takeName_bind_attributed (fun target tail hline hrest => ?_) hread
  subst hline
  obtain ⟨colon, tail, rfl, _, htake⟩ | ⟨_, htake⟩ := take?_cases .colon tail
  · simp only [htake] at hrest
    exact ((finish_take?_attributed stop (.signal source arrow target) hrest).cons _).cons _
  · simp only [htake] at hrest
    cases tail with
    | nil => cases hrest
    | cons token tail =>
      cases hrest
      exact .inl ⟨by simp, fun h => by cases h⟩

theorem readName_attributed {stop : Token} {line : List Token} {problem : Diagnostic}
    (hread : readName stop line = .error problem) : Attributed stop line problem := by
  refine takeName_bind_attributed (fun source rest hline hrest => ?_) hread
  subst hline
  cases rest with
  | nil => cases hrest
  | cons token rest =>
    by_cases harrow : token.kind = .arrow
    · simp only [harrow, if_true] at hrest
      exact ((readTarget_attributed hrest).cons _).cons _
    · simp only [harrow, if_false] at hrest
      cases hrest
      exact .inl ⟨by simp, fun h => by cases h⟩

/-- The problem of a line that makes no statement lies with the line. -/
theorem read_attributed {stop first : Token} {rest : List Token} {problem : Diagnostic}
    (hread : read stop first rest = .error problem) : Attributed stop (first :: rest) problem := by
  have hactivation (hread : (takeName stop rest >>= fun taken =>
        finish (.activation first taken.1) taken.2) = .error problem) :
      Attributed stop (first :: rest) problem := by
    refine (takeName_bind_attributed (fun name tail hline hrest => ?_) hread).cons first
    subst hline
    exact (finish_attributed stop hrest).cons _
  unfold read at hread
  split at hread
  · exact readTitle_attributed stop hread
  · exact (readParticipant_attributed hread).cons _
  · exact readName_attributed hread
  · exact hactivation hread
  · exact hactivation hread
  · exact (finish_take?_attributed stop (.openFragment first) hread).cons _
  · exact (finish_take?_attributed stop (.nextOperand first) hread).cons _
  · exact (finish_take?_attributed stop (.nextOperand first) hread).cons _
  · exact (finish_attributed stop hread).cons _
  · cases hread
    exact unexpected_attributed stop List.mem_cons_self

end TokenLine

end SequenceChart
