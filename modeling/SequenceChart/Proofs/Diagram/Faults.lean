import Mathlib.Data.List.Perm.Basic
import SequenceChart.Proofs.Diagram.Opened
import SequenceChart.Proofs.Statement.Lines

namespace SequenceChart

open Nesting

/-- No statement is reported both when it is met and at the end. -/
theorem Statement.or_toList (statement : Statement) (front back : List Statement) :
    ((statement.complaint? front).or (statement.unclosed? back)).toList =
      (statement.complaint? front).toList ++ (statement.unclosed? back).toList := by
  cases statement with
  | openFragment => simp [complaint?]
  | _ => simp [unclosed?]

namespace TokenLine

/-- The statements of lines. -/
def statements (lines : List TokenLine) : List Statement :=
  lines.filterMap statement?

/-- What is wrong with a line, given the lines before and after it. Either the line is rejected, or
    its statement needs an open fragment or an open activation that the lines before it do not leave,
    or it opens a fragment that the lines after it leave open. -/
inductive Fault (before : List TokenLine) (line : TokenLine) (after : List TokenLine) :
    Diagnostic → Prop where
  | rejected {problem : Diagnostic} (houtcome : line.outcome? = some (.error problem)) :
      Fault before line after problem
  | outside {keyword : Token} {label : Option Token}
      (hstatement : line.statement? = some (.nextOperand keyword label))
      (hnone : ¬ OpenAfter Statement.fragmentNesting (statements before)) :
      Fault before line after ⟨keyword, .outsideFragment⟩
  | unmatched {keyword : Token} (hstatement : line.statement? = some (.closeFragment keyword))
      (hnone : ¬ OpenAfter Statement.fragmentNesting (statements before)) :
      Fault before line after ⟨keyword, .unmatchedClose⟩
  | inactive {keyword name : Token} (hstatement : line.statement? = some (.activation keyword name))
      (hkeyword : keyword.value = Keyword.deactivate.word)
      (hnone : ¬ OpenAfter (Statement.activationNesting name.value) (statements before)) :
      Fault before line after ⟨keyword, .notActive name.value⟩
  | unclosed {keyword : Token} {label : Option Token}
      (hstatement : line.statement? = some (.openFragment keyword label))
      (hstays : StaysOpen Statement.fragmentNesting (statements after)) :
      Fault before line after ⟨keyword, .unclosedFragment keyword.value⟩

/-- What is reported of a line. -/
def fault? (before : List TokenLine) (line : TokenLine) (after : List TokenLine) :
    Option Diagnostic :=
  match line.outcome? with
  | none => none
  | some (.error problem) => some problem
  | some (.ok statement) =>
    (statement.complaint? (statements before)).or (statement.unclosed? (statements after))

/-- What is reported of lines, given the lines before them. -/
def faults (before : List TokenLine) : List TokenLine → List Diagnostic
  | [] => []
  | line :: rest => (fault? before line rest).toList ++ faults (before ++ [line]) rest

theorem statements_cons (line : TokenLine) (lines : List TokenLine) :
    statements (line :: lines) = line.statement?.toList ++ statements lines := by
  cases hstatement : line.statement? <;> simp [statements, hstatement]

theorem statements_concat (lines : List TokenLine) (line : TokenLine) :
    statements (lines ++ [line]) = statements lines ++ line.statement?.toList := by
  cases hstatement : line.statement? <;> simp [statements, hstatement]

/-- What is reported of the lines is the problems of the rejected lines, what is reported of the
    statements when they are met, and the fragments that are left open, in some order. -/
theorem faults_perm (before lines : List TokenLine) :
    (lines.filterMap problem? ++ (Statement.complaints (statements before) (statements lines) ++
      Statement.unclosed (statements lines))).Perm (faults before lines) := by
  -- The lines in front grow with every step, since a report depends on all of them.
  induction lines generalizing before with
  | nil => exact .nil
  | cons line rest ih =>
    have hrest := ih (before ++ [line])
    rw [statements_concat] at hrest
    rw [faults, statements_cons, fault?]
    cases houtcome : line.outcome? with
    | none =>
      have hproblem : line.problem? = none := by simp [problem?, houtcome]
      have hstatement : line.statement? = none := by simp [statement?, houtcome]
      simpa [hproblem, hstatement] using hrest
    | some outcome =>
      cases outcome with
      | error problem =>
        have hproblem : line.problem? = some problem := by simp [problem?, houtcome]
        have hstatement : line.statement? = none := by simp [statement?, houtcome]
        simpa [hproblem, hstatement] using hrest
      | ok statement =>
        have hproblem : line.problem? = none := by simp [problem?, houtcome]
        have hstatement : line.statement? = some statement := by simp [statement?, houtcome]
        rw [hstatement, Option.toList_some] at hrest
        rw [List.filterMap_cons_none hproblem, hstatement, Option.toList_some,
          List.singleton_append, Statement.complaints, Statement.unclosed, Statement.or_toList]
        rw [List.perm_iff_count] at hrest ⊢
        intro problem
        have hcount := hrest problem
        simp only [List.count_append] at hcount ⊢
        omega

theorem mem_faults {before lines : List TokenLine} {problem : Diagnostic} :
    problem ∈ faults before lines ↔ ∃ front line back, lines = front ++ line :: back ∧
      fault? (before ++ front) line back = some problem := by
  induction lines generalizing before with
  | nil => simp [faults]
  | cons first rest ih =>
    rw [faults, List.mem_append, Option.mem_toList, ih]
    constructor
    · rintro (hfirst | ⟨front, line, back, rfl, hfault⟩)
      · exact ⟨[], first, rest, rfl, by simpa using hfirst⟩
      · exact ⟨first :: front, line, back, rfl, by simpa using hfault⟩
    · rintro ⟨front, line, back, hlines, hfault⟩
      cases front with
      | nil =>
        cases hlines
        exact .inl (by simpa using hfault)
      | cons _ front =>
        cases hlines
        exact .inr ⟨front, line, back, rfl, by simpa using hfault⟩

theorem outcome?_of_statement? {line : TokenLine} {statement : Statement}
    (hstatement : line.statement? = some statement) : line.outcome? = some (.ok statement) := by
  unfold statement? at hstatement
  split at hstatement
  · next houtcome =>
    cases hstatement
    exact houtcome
  · cases hstatement

theorem problem?_of_outcome? {line : TokenLine} {problem : Diagnostic}
    (houtcome : line.outcome? = some (.error problem)) : line.problem? = some problem := by
  simp [problem?, houtcome]

theorem statement?_of_outcome? {line : TokenLine} {statement : Statement}
    (houtcome : line.outcome? = some (.ok statement)) : line.statement? = some statement := by
  simp [statement?, houtcome]

/-- The keywords of a line are written as their words. -/
def Spelled (line : TokenLine) : Prop :=
  ∀ token ∈ line.body, ∀ keyword, token.kind = .keyword keyword → token.value = keyword.word

theorem value_of_activation {line : TokenLine} {keyword name : Token}
    (hstatement : line.statement? = some (.activation keyword name))
    (hwords : line.Spelled) :
    keyword.value = Keyword.activate.word ∨ keyword.value = Keyword.deactivate.word := by
  have hform := form_of_statement? hstatement
  unfold Spelled at hwords
  generalize line.body = body at hform hwords
  cases hform with
  | activation hkeyword =>
    exact hkeyword.imp (hwords _ List.mem_cons_self _) (hwords _ List.mem_cons_self _)

theorem fault_of_complaint? {before : List TokenLine} {line : TokenLine} {statement : Statement}
    {problem : Diagnostic} (hstatement : line.statement? = some statement)
    (hwords : line.Spelled)
    (hcomplaint : statement.complaint? (statements before) = some problem) (after : List TokenLine) :
    Fault before line after problem := by
  cases statement with
  | activation keyword name =>
    simp only [Statement.complaint?] at hcomplaint
    obtain hactivate | hdeactivate := value_of_activation hstatement hwords
    · simp [hactivate] at hcomplaint
    · split at hcomplaint
      · cases hcomplaint
      · split at hcomplaint
        · cases hcomplaint
        · next hnone =>
          cases hcomplaint
          exact .inactive hstatement hdeactivate (mt (openAfter_iff _ _).1 hnone)
  | nextOperand keyword label =>
    simp only [Statement.complaint?] at hcomplaint
    split at hcomplaint
    · cases hcomplaint
    · next hnone =>
      cases hcomplaint
      exact .outside hstatement (mt (openAfter_iff _ _).1 hnone)
  | closeFragment keyword =>
    simp only [Statement.complaint?] at hcomplaint
    split at hcomplaint
    · cases hcomplaint
    · next hnone =>
      cases hcomplaint
      exact .unmatched hstatement (mt (openAfter_iff _ _).1 hnone)
  | _ => cases hcomplaint

theorem fault_of_unclosed? (before : List TokenLine) {line : TokenLine} {after : List TokenLine}
    {statement : Statement} {problem : Diagnostic} (hstatement : line.statement? = some statement)
    (hunclosed : statement.unclosed? (statements after) = some problem) :
    Fault before line after problem := by
  cases statement with
  | openFragment keyword label =>
    simp only [Statement.unclosed?] at hunclosed
    split at hunclosed
    · next hstays =>
      cases hunclosed
      exact .unclosed hstatement ((staysOpen_iff _ _).2 hstays)
    · cases hunclosed
  | _ => cases hunclosed

theorem fault?_of_fault {before after : List TokenLine} {line : TokenLine} {problem : Diagnostic}
    (hfault : Fault before line after problem) : fault? before line after = some problem := by
  cases hfault with
  | rejected houtcome => simp [fault?, houtcome]
  | outside hstatement hnone =>
    have hleft := mt (openAfter_iff _ _).2 hnone
    simp [fault?, outcome?_of_statement? hstatement, Statement.complaint?, hleft]
  | unmatched hstatement hnone =>
    have hleft := mt (openAfter_iff _ _).2 hnone
    simp [fault?, outcome?_of_statement? hstatement, Statement.complaint?, hleft]
  | inactive hstatement hkeyword hnone =>
    have hleft := mt (openAfter_iff _ _).2 hnone
    have hother : Keyword.deactivate.word ≠ Keyword.activate.word := by decide
    simp [fault?, outcome?_of_statement? hstatement, Statement.complaint?, hleft, hkeyword, hother]
  | unclosed hstatement hstays =>
    have hsurplus := (staysOpen_iff _ _).1 hstays
    simp [fault?, outcome?_of_statement? hstatement, Statement.complaint?, Statement.unclosed?,
      hsurplus]

/-- What is reported of a line is what is wrong with it, provided that its keywords are written as
    their words. -/
theorem fault?_eq_some_iff {before after : List TokenLine} {line : TokenLine} {problem : Diagnostic}
    (hwords : line.Spelled) :
    fault? before line after = some problem ↔ Fault before line after problem := by
  refine ⟨fun hfault => ?_, fault?_of_fault⟩
  unfold fault? at hfault
  split at hfault
  · cases hfault
  · next houtcome =>
    cases hfault
    exact .rejected houtcome
  · next statement houtcome =>
    have hstatement := statement?_of_outcome? houtcome
    obtain hcomplaint | ⟨_, hunclosed⟩ := Option.or_eq_some_iff.1 hfault
    · exact fault_of_complaint? hstatement hwords hcomplaint after
    · exact fault_of_unclosed? before hstatement hunclosed

theorem Form.token_mem {line : List Token} {statement : Statement} (hform : Form line statement)
    {token : Token} (htoken : statement.token? = some token) : token ∈ line := by
  cases hform <;> cases htoken <;> simp

/-- What is reported of a line is attributed to one of its tokens. -/
theorem token_mem_of_fault {before after : List TokenLine} {line : TokenLine} {problem : Diagnostic}
    (hfault : Fault before line after problem) : problem.token ∈ line.tokens := by
  have hbody {statement : Statement} (hstatement : line.statement? = some statement)
      {token : Token} (htoken : statement.token? = some token) : token ∈ line.tokens :=
    List.mem_append_left _ ((form_of_statement? hstatement).token_mem htoken)
  cases hfault with
  | rejected houtcome =>
    obtain ⟨htoken, _⟩ | rfl := attributed_of_problem? (problem?_of_outcome? houtcome)
    · exact List.mem_append_left _ htoken
    · exact List.mem_append_right _ List.mem_cons_self
  | outside hstatement => exact hbody hstatement rfl
  | unmatched hstatement => exact hbody hstatement rfl
  | inactive hstatement => exact hbody hstatement rfl
  | unclosed hstatement => exact hbody hstatement rfl

end TokenLine

end SequenceChart
