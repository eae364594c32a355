import SequenceChart.Proofs.Diagram.Course

namespace SequenceChart

open Nesting

namespace Statement

/-- Statements that leave nothing open: no fragment, and no activation of any name. -/
structure LeaveNothing (statements : List Statement) : Prop where
  fragments : ¬ OpenAfter fragmentNesting statements
  activations : ∀ name, ¬ OpenAfter (activationNesting name) statements

theorem LeaveNothing.unclosed_eq {statements : List Statement} (hnothing : LeaveNothing statements) :
    unclosed statements = [] := by
  have hfragments := hnothing.fragments
  rw [openAfter_iff, not_not] at hfragments
  rw [← filterMap_leftOpen, hfragments, List.filterMap_nil]

end Statement

namespace Builder

variable {builder : Builder} {earlier : List Diagnostic}

/-- The builder with earlier problems in front of its own. -/
def since (earlier : List Diagnostic) (builder : Builder) : Builder :=
  { builder with problems := earlier ++ builder.problems }

theorem since_push (element : Element) :
    (builder.since earlier).push element = (builder.push element).since earlier :=
  rfl

theorem since_record (token : Token) (problem : Problem) :
    (builder.since earlier).record token problem = (builder.record token problem).since earlier := by
  simp [since, record]

theorem since_ensure (name : String) :
    (builder.since earlier).ensure name = (builder.ensure name).since earlier := by
  have hfind : (builder.since earlier).find? name = builder.find? name := rfl
  simp only [ensure, hfind]
  split <;> rfl

theorem since_declare (name : String) (label : Option Token) :
    (builder.since earlier).declare name label = (builder.declare name label).since earlier := by
  have hfind : (builder.since earlier).find? name = builder.find? name := rfl
  simp only [declare, hfind]
  split <;> rfl

theorem since_deactivate (name : String) (token : Token) :
    (builder.since earlier).deactivate name token = (builder.deactivate name token).since earlier := by
  have hactive : (builder.since earlier).active = builder.active := rfl
  simp only [deactivate, hactive]
  split
  · rfl
  · exact since_record token (.notActive name)

/-- What a builder does next does not depend on the problems that it has recorded. -/
theorem since_after (statement : Statement) :
    (builder.since earlier).after statement = (builder.after statement).since earlier := by
  cases statement with
  | setTitle => rfl
  | declare name label => exact since_declare name.value label
  | mention name => exact since_ensure name.value
  | signal source arrow target label => simp only [after, since_ensure, since_push]
  | activation keyword name =>
    simp only [after]
    split
    · simp only [activate, since_ensure]
      rfl
    · exact since_deactivate name.value keyword
  | openFragment => rfl
  | nextOperand keyword label =>
    have hopened : (builder.since earlier).opened = builder.opened := rfl
    simp only [after, nextOperand, hopened]
    split
    · exact since_record keyword .outsideFragment
    · rfl
  | closeFragment keyword =>
    have hopened : (builder.since earlier).opened = builder.opened := rfl
    simp only [after, closeFragment, hopened]
    split
    · exact since_record keyword .unmatchedClose
    · rfl
  | unknown => rfl

theorem foldl_after_since (earlier : List Diagnostic) (builder : Builder)
    (statements : List Statement) :
    statements.foldl after (builder.since earlier) = (statements.foldl after builder).since earlier :=
  List.foldl_hom (since earlier) fun _ statement => since_after statement

/-- Where nothing is open, a builder holds nothing but its diagram and the problems so far. -/
theorem eq_since_ofDiagram (hsettled : builder.Settled) (hopened : builder.opened = [])
    (hactive : builder.active = []) (hopen : builder.isFinished = false) :
    builder = (ofDiagram builder.diagram).since builder.problems := by
  obtain ⟨habandoned, _⟩ := hsettled
  have hcontent : builder.content = builder.body := by
    rw [content, hopened, habandoned]
    rfl
  obtain ⟨title, participants, guard, opened, abandoned, body, active, problems, isFinished⟩ := builder
  simp_all [since, ofDiagram, diagram]

/-- After statements that leave nothing open, a new builder stands where one would start that goes on
    with their diagram, but for the problems. -/
theorem foldl_after_of_leaveNothing (start : Diagram) {statements : List Statement}
    (hnothing : Statement.LeaveNothing statements) :
    statements.foldl after (ofDiagram start) =
      (ofDiagram (statements.foldl after (ofDiagram start)).diagram).since
        (Statement.complaints [] statements) := by
  have hopened : (statements.foldl after (ofDiagram start)).opened = [] := by
    by_contra hsome
    exact hnothing.fragments ((openAfter_iff _ _).2 ((foldl_after_opened start statements).1 hsome))
  have hactive : (statements.foldl after (ofDiagram start)).active = [] := by
    refine List.eq_nil_iff_forall_not_mem.2 fun name hname => ?_
    exact hnothing.activations name
      ((openAfter_iff _ _).2 ((mem_foldl_after_active start statements name).1 hname))
  have hproblems : (statements.foldl after (ofDiagram start)).problems =
      Statement.complaints [] statements :=
    foldl_after_problems start [] statements
  have hsince := eq_since_ofDiagram (foldl_after_settled (ofDiagram_settled start) statements)
    hopened hactive (foldl_after_isFinished start statements)
  rwa [hproblems] at hsince

end Builder

namespace Statement

variable {front : List Statement}

/-- The fragments that are left open are those of the later statements. -/
theorem LeaveNothing.unclosed_append (hnothing : LeaveNothing front) (back : List Statement) :
    unclosed (front ++ back) = unclosed back := by
  have hbuilders : ((front ++ back).foldl Builder.after (Builder.ofDiagram {})).fragments =
      (back.foldl Builder.after (Builder.ofDiagram
        (front.foldl Builder.after (Builder.ofDiagram {})).diagram)).fragments := by
    rw [List.foldl_append, Builder.foldl_after_of_leaveNothing {} hnothing,
      Builder.foldl_after_since]
    rfl
  rw [Builder.foldl_after_fragments, Builder.foldl_after_fragments, List.reverse_inj] at hbuilders
  have hreported := congrArg (List.filterMap Diagnostic.unclosed?) hbuilders
  rwa [List.filterMap_map, List.filterMap_map, Function.comp_def, filterMap_leftOpen,
    filterMap_leftOpen] at hreported

/-- Nothing is reported of the later statements on account of the earlier ones. -/
theorem LeaveNothing.complaints_append (hnothing : LeaveNothing front) (back : List Statement) :
    complaints [] (front ++ back) = complaints [] front ++ complaints [] back := by
  have hreported (start : Diagram) (statements : List Statement) :
      (statements.foldl Builder.after (Builder.ofDiagram start)).problems = complaints [] statements :=
    Builder.foldl_after_problems start [] statements
  rw [← hreported {}, List.foldl_append, Builder.foldl_after_of_leaveNothing {} hnothing,
    Builder.foldl_after_since, Builder.since, hreported]

end Statement

/-- A diagram may be built in parts. Where the statements so far leave nothing open, the others can
    be applied to the diagram that there is, and nothing else is remembered: this gives the diagram
    of all statements, and the problems with them in their order. -/
theorem Diagram.build_append (start : Diagram) {front back : List Statement}
    (hfront : ∀ statement ∈ front, statement.Complete)
    (hback : ∀ statement ∈ back, statement.Complete) (hnothing : Statement.LeaveNothing front) :
    ∃ middle whole earlier later, Diagram.build front start = .ok (middle, earlier) ∧
      Diagram.build back middle = .ok (whole, later) ∧
      Diagram.build (front ++ back) start = .ok (whole, earlier ++ later) := by
  refine ⟨_, _, _, _, build_eq_ok start hfront, build_eq_ok _ hback, ?_⟩
  rw [build_eq_ok start (List.forall_mem_append.2 ⟨hfront, hback⟩), List.foldl_append,
    Builder.foldl_after_of_leaveNothing start hnothing, Builder.foldl_after_since,
    hnothing.complaints_append, hnothing.unclosed_append, hnothing.unclosed_eq, List.reverse_nil,
    List.append_nil, List.append_assoc]
  rfl

/-- The first part reports an end that nothing waits for, and the second part one that the first part
    could have been waiting for. -/
theorem Diagram.build_append_fragment :
    let front : List Statement := [.closeFragment ⟨.keyword .close, "end", 1, 1, 0, 3⟩,
      .openFragment ⟨.keyword (.fragment .loop), "loop", 2, 1, 4, 4⟩ none,
      .activation ⟨.keyword .activate, "activate", 3, 1, 9, 8⟩ ⟨.name, "A", 3, 10, 18, 1⟩,
      .activation ⟨.keyword .deactivate, "deactivate", 4, 1, 20, 10⟩ ⟨.name, "A", 4, 12, 31, 1⟩,
      .closeFragment ⟨.keyword .close, "end", 5, 1, 33, 3⟩]
    let back : List Statement := [.closeFragment ⟨.keyword .close, "end", 6, 1, 37, 3⟩,
      .activation ⟨.keyword .deactivate, "deactivate", 7, 1, 41, 10⟩ ⟨.name, "A", 7, 12, 52, 1⟩,
      .openFragment ⟨.keyword (.fragment .opt), "opt", 8, 1, 54, 3⟩ none]
    (∀ statement ∈ front, statement.Complete) ∧ (∀ statement ∈ back, statement.Complete) ∧
      Statement.LeaveNothing front ∧
      ∃ middle whole earlier later, Diagram.build front {} = .ok (middle, earlier) ∧
        Diagram.build back middle = .ok (whole, later) ∧
        Diagram.build (front ++ back) {} = .ok (whole, earlier ++ later) := by
  intro front back
  have hfront : ∀ statement ∈ front, statement.Complete := by simp [front, Statement.Complete]
  have hback : ∀ statement ∈ back, statement.Complete := by simp [back, Statement.Complete]
  have hnothing : Statement.LeaveNothing front := by
    refine ⟨?_, fun name => ?_⟩
    · rw [openAfter_iff]
      decide
    · rw [openAfter_iff]
      by_cases hname : "A" = name
      · subst hname
        decide
      · simp [front, leftOpen, Statement.activationNesting, hname]
  exact ⟨hfront, hback, hnothing, build_append {} hfront hback hnothing⟩

end SequenceChart
