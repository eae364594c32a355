import SequenceChart.Proofs.Nesting
import SequenceChart.Proofs.Diagram.Run

namespace SequenceChart

namespace Statement

open Nesting

/-- What a statement does to the open fragments. -/
def fragmentNesting : Statement → Nesting
  | .openFragment _ _ => .opening
  | .closeFragment _ => .closing
  | _ => .neutral

/-- What a statement that opens a fragment says of it: where it stands, and of which kind it is. -/
def opening (statement : Statement) : Option Token × String :=
  (statement.token?, textOf statement.token?)

/-- What a statement does to the open activations of a name. -/
def activationNesting (name : String) : Statement → Nesting
  | .activation keyword other =>
    if other.value ≠ name then .neutral
    else if keyword.value = Keyword.activate.word then .opening
    else .closing
  | _ => .neutral

/-- What is reported of a statement when it is met, given the statements in front of it. -/
def complaint? (front : List Statement) : Statement → Option Diagnostic
  | .activation keyword name =>
    if keyword.value = Keyword.activate.word then none
    else if leftOpen (activationNesting name.value) front ≠ [] then none
    else some ⟨keyword, .notActive name.value⟩
  | .nextOperand keyword _ =>
    if leftOpen fragmentNesting front ≠ [] then none else some ⟨keyword, .outsideFragment⟩
  | .closeFragment keyword =>
    if leftOpen fragmentNesting front ≠ [] then none else some ⟨keyword, .unmatchedClose⟩
  | _ => none

/-- What is reported of a statement at the end, given the statements after it. -/
def unclosed? (back : List Statement) : Statement → Option Diagnostic
  | .openFragment keyword _ =>
    if surplus fragmentNesting back = 0 then some ⟨keyword, .unclosedFragment keyword.value⟩ else none
  | _ => none

def complaints (front : List Statement) : List Statement → List Diagnostic
  | [] => []
  | statement :: rest =>
    (statement.complaint? front).toList ++ complaints (front ++ [statement]) rest

def unclosed : List Statement → List Diagnostic
  | [] => []
  | statement :: rest => (statement.unclosed? rest).toList ++ unclosed rest

end Statement

namespace Builder

open Nesting

variable {builder : Builder}

theorem after_fragments (builder : Builder) (statement : Statement) :
    (builder.after statement).fragments =
      step Statement.fragmentNesting Statement.opening builder.fragments statement := by
  cases statement with
  | setTitle => rfl
  | declare name label =>
    obtain ⟨participants, hdeclare⟩ := declare_eq builder name.value label
    rw [after, hdeclare]
    rfl
  | mention name => simp [after, fragments, step, Statement.fragmentNesting]
  | signal => simp [after, push, fragments, step, Statement.fragmentNesting]
  | activation =>
    simp only [after, activate, deactivate]
    split
    · simp [push, fragments, step, Statement.fragmentNesting]
    · split <;> rfl
  | openFragment => rfl
  | nextOperand =>
    simp only [after, nextOperand]
    split
    · rfl
    · next hopened => simp [turn, fragments, hopened, step, Statement.fragmentNesting]
  | closeFragment =>
    simp only [after, closeFragment]
    split
    · next hopened => simp [record, fragments, hopened, step, Statement.fragmentNesting]
    · next hopened => simp [leave, fragments, hopened, step, Statement.fragmentNesting]
  | unknown => rfl

/-- The open activations of a name. -/
def activations (builder : Builder) (name : String) : List Unit :=
  List.replicate (builder.active.count name) ()

theorem activate_activations (builder : Builder) (name other : String) :
    (builder.activate other).activations name =
      if other = name then () :: builder.activations name else builder.activations name := by
  by_cases hname : other = name
  · simp [activate, push, activations, hname, List.replicate_succ]
  · simp [activate, push, activations, hname]

theorem deactivate_activations (builder : Builder) (name other : String) (token : Token) :
    (builder.deactivate other token).activations name =
      if other = name then (builder.activations name).tail else builder.activations name := by
  unfold deactivate
  split
  · by_cases hname : other = name
    · simp [push, activations, hname]
    · simp [push, activations, hname, List.count_erase_of_ne (Ne.symm hname)]
  · next hactive =>
    by_cases hname : other = name
    · subst hname
      simp [record, activations, List.count_eq_zero_of_not_mem hactive]
    · simp [record, activations, hname]

theorem after_activations (builder : Builder) (statement : Statement) (name : String) :
    (builder.after statement).activations name =
      step (Statement.activationNesting name) (fun _ => ()) (builder.activations name) statement := by
  cases statement with
  | setTitle => rfl
  | declare other label =>
    obtain ⟨participants, hdeclare⟩ := declare_eq builder other.value label
    rw [after, hdeclare]
    rfl
  | mention other => simp [after, activations, step, Statement.activationNesting]
  | signal => simp [after, push, activations, step, Statement.activationNesting]
  | activation keyword other =>
    simp only [after, step, Statement.activationNesting]
    by_cases hkeyword : keyword.value = Keyword.activate.word
    · rw [if_pos hkeyword, activate_activations]
      by_cases hname : other.value = name <;> simp [hname, hkeyword]
    · rw [if_neg hkeyword, deactivate_activations]
      by_cases hname : other.value = name <;> simp [hname, hkeyword]
  | openFragment => rfl
  | nextOperand =>
    simp only [after, nextOperand]
    split <;> rfl
  | closeFragment =>
    simp only [after, closeFragment]
    split <;> rfl
  | unknown => rfl

theorem after_problems {front : List Statement}
    (hopened : builder.opened ≠ [] ↔ leftOpen Statement.fragmentNesting front ≠ [])
    (hactive : ∀ name,
      name ∈ builder.active ↔ leftOpen (Statement.activationNesting name) front ≠ [])
    (statement : Statement) :
    (builder.after statement).problems =
      builder.problems ++ (statement.complaint? front).toList := by
  cases statement with
  | setTitle => simp [after, Statement.complaint?]
  | declare name label =>
    obtain ⟨participants, hdeclare⟩ := declare_eq builder name.value label
    simp [after, hdeclare, Statement.complaint?]
  | mention name => simp [after, Statement.complaint?]
  | signal => simp [after, push, Statement.complaint?]
  | activation keyword name =>
    simp only [after, activate, deactivate, Statement.complaint?, ← hactive]
    by_cases hkeyword : keyword.value = Keyword.activate.word
    · simp [hkeyword, push]
    · by_cases hname : name.value ∈ builder.active <;> simp [hkeyword, hname, push, record]
  | openFragment => simp [after, enter, Statement.complaint?]
  | nextOperand =>
    simp only [after, nextOperand, Statement.complaint?, ← hopened]
    split
    · next hnone => simp [hnone, record]
    · next hsome => simp [hsome, turn]
  | closeFragment =>
    simp only [after, closeFragment, Statement.complaint?, ← hopened]
    split
    · next hnone => simp [hnone, record]
    · next hsome => simp [hsome, leave]
  | unknown => simp [after, Statement.complaint?]

/-- The fragments that a new builder has open after some statements are those that the statements
    leave open, the last one first. -/
theorem foldl_after_fragments (start : Diagram) (statements : List Statement) :
    (statements.foldl after (ofDiagram start)).fragments =
      ((leftOpen Statement.fragmentNesting statements).map Statement.opening).reverse := by
  have hsteps : statements.foldl (step Statement.fragmentNesting Statement.opening)
      (ofDiagram start).fragments = (statements.foldl after (ofDiagram start)).fragments :=
    List.foldl_hom fragments fun builder statement => (after_fragments builder statement).symm
  rw [← hsteps, foldl_step]
  simp [fragments, ofDiagram]

theorem mem_active_iff (name : String) : name ∈ builder.active ↔ builder.activations name ≠ [] := by
  rw [activations, ← List.count_pos_iff, Ne, List.replicate_eq_nil_iff]
  omega

/-- A name has an open activation in a new builder after some statements if the statements leave one
    open. -/
theorem mem_foldl_after_active (start : Diagram) (statements : List Statement) (name : String) :
    name ∈ (statements.foldl after (ofDiagram start)).active ↔
      leftOpen (Statement.activationNesting name) statements ≠ [] := by
  have hsteps : statements.foldl (step (Statement.activationNesting name) fun _ => ())
      ((ofDiagram start).activations name) =
        (statements.foldl after (ofDiagram start)).activations name :=
    List.foldl_hom (activations · name) fun builder statement =>
      (after_activations builder statement name).symm
  rw [mem_active_iff, ← hsteps, foldl_step]
  simp [activations, ofDiagram]

theorem foldl_after_opened (start : Diagram) (statements : List Statement) :
    (statements.foldl after (ofDiagram start)).opened ≠ [] ↔
      leftOpen Statement.fragmentNesting statements ≠ [] := by
  have hfragments := foldl_after_fragments start statements
  rw [fragments] at hfragments
  rw [Ne, ← List.map_eq_nil_iff, hfragments]
  simp

/-- A new builder reports of each statement what the statements in front of it give reason for. -/
theorem foldl_after_problems (start : Diagram) (front statements : List Statement) :
    ((front ++ statements).foldl after (ofDiagram start)).problems =
      (front.foldl after (ofDiagram start)).problems ++ Statement.complaints front statements := by
  induction statements generalizing front with
  | nil => simp [Statement.complaints]
  | cons statement rest ih =>
    have hstatement := after_problems (foldl_after_opened start front)
      (mem_foldl_after_active start front) statement
    calc ((front ++ statement :: rest).foldl after (ofDiagram start)).problems
      _ = ((front ++ [statement] ++ rest).foldl after (ofDiagram start)).problems := by
        rw [List.append_assoc, List.singleton_append]
      _ = ((front ++ [statement]).foldl after (ofDiagram start)).problems ++
          Statement.complaints (front ++ [statement]) rest := ih (front ++ [statement])
      _ = (front.foldl after (ofDiagram start)).problems ++
          Statement.complaints front (statement :: rest) := by
        rw [List.foldl_concat, hstatement, Statement.complaints, List.append_assoc]

theorem foldl_after_isFinished (start : Diagram) (statements : List Statement) :
    (statements.foldl after (ofDiagram start)).isFinished = false := by
  have hsteps : statements.foldl (fun finished _ => finished) (ofDiagram start).isFinished =
      (statements.foldl after (ofDiagram start)).isFinished :=
    List.foldl_hom isFinished fun builder statement => (after_isFinished builder statement).symm
  rw [← hsteps]
  simp [ofDiagram]

/-- A fragment that a statement opened has its token. -/
theorem foldl_after_token (start : Diagram) {statements : List Statement} {fragment : OpenFragment}
    (hfragment : fragment ∈ (statements.foldl after (ofDiagram start)).opened) :
    fragment.token.isSome := by
  have hmem : (fragment.token, fragment.enclosure.kind) ∈
      (statements.foldl after (ofDiagram start)).fragments := List.mem_map_of_mem hfragment
  rw [foldl_after_fragments, List.mem_reverse] at hmem
  obtain ⟨statement, hstatement, hopening⟩ := List.mem_map.1 hmem
  have hnesting := opening_of_mem_leftOpen _ hstatement
  cases statement with
  | openFragment keyword label =>
    have htoken : some keyword = fragment.token := congrArg Prod.fst hopening
    rw [← htoken]
    rfl
  | _ => cases hnesting

end Builder

theorem Statement.filterMap_leftOpen (statements : List Statement) :
    (Nesting.leftOpen fragmentNesting statements).filterMap
      (fun statement => Diagnostic.unclosed? statement.opening) = unclosed statements := by
  induction statements with
  | nil => rfl
  | cons statement rest ih =>
    rw [Nesting.leftOpen, unclosed]
    cases statement with
    | openFragment keyword label =>
      by_cases hrest : Nesting.surplus fragmentNesting rest = 0
      · rw [if_pos ⟨rfl, hrest⟩, List.filterMap_cons, ih]
        simp [unclosed?, hrest, opening, token?, textOf, Diagnostic.unclosed?]
      · rw [if_neg fun hopen => hrest hopen.2, ih]
        simp [unclosed?, hrest]
    | _ => simpa [fragmentNesting, unclosed?] using ih

/-- Complete statements make a diagram. What is reported of them when they are met comes first, and
    then the fragments that they leave open, the last one first. -/
theorem Diagram.build_eq_ok {statements : List Statement} (start : Diagram)
    (hcomplete : ∀ statement ∈ statements, statement.Complete) :
    Diagram.build statements start =
      .ok ((statements.foldl Builder.after (Builder.ofDiagram start)).diagram,
        Statement.complaints [] statements ++ (Statement.unclosed statements).reverse) := by
  have hopen : (statements.foldl Builder.after (Builder.ofDiagram start)).isFinished = false :=
    Builder.foldl_after_isFinished start statements
  obtain ⟨after, hfinish, hdiagram⟩ :=
    Building.finish_run hopen fun _ hfragment => Builder.foldl_after_token start hfragment
  have hproblems := Builder.foldl_after_problems start [] statements
  rw [List.nil_append] at hproblems
  have hunclosed := Statement.filterMap_leftOpen statements
  have hcall : (Building.applyAll statements >>= fun _ => Building.finish).run.run
      (Builder.ofDiagram start) =
        (.ok (Statement.complaints [] statements ++ (Statement.unclosed statements).reverse), after) := by
    rw [Building.run_bind_ok (Building.applyAll_run rfl hcomplete), hfinish, hproblems,
      Builder.foldl_after_fragments, List.filterMap_reverse, List.filterMap_map]
    simp only [Function.comp_def, hunclosed]
    rfl
  simp only [Diagram.build, hcall, hdiagram]

end SequenceChart
