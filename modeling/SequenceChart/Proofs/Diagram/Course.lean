import SequenceChart.Proofs.Diagram.Contents
import SequenceChart.Proofs.Diagram.Opened

namespace SequenceChart

open Nesting

namespace Statement

/-- The event that a statement stands for, if it stands for any. -/
def told? : Statement → Option Event
  | .signal source arrow target label =>
    some (.signal ⟨source.value, target.value, textOf label, Building.styleOf arrow.value,
      Building.hasHead arrow.value⟩)
  | .activation keyword name =>
    some (.activation name.value (keyword.value = Keyword.activate.word))
  | .openFragment keyword label => some (.opening keyword.value (textOf label))
  | .nextOperand _ label => some (.next (textOf label))
  | .closeFragment _ => some .closing
  | _ => none

/-- A statement goes on with something, or ends it, that the statements in front of it do not leave
    open. -/
def Unmatched (front : List Statement) : Statement → Prop
  | .activation keyword name =>
    keyword.value ≠ Keyword.activate.word ∧ ¬ OpenAfter (activationNesting name.value) front
  | .nextOperand _ _ | .closeFragment _ => ¬ OpenAfter fragmentNesting front
  | _ => False

/-- Exactly the unmatched statements are reported when they are met. -/
theorem complaint?_isSome_iff (front : List Statement) (statement : Statement) :
    (statement.complaint? front).isSome ↔ statement.Unmatched front := by
  cases statement with
  | activation keyword name =>
    simp only [complaint?, Unmatched, openAfter_iff]
    by_cases hkeyword : keyword.value = Keyword.activate.word
    · simp [hkeyword]
    · by_cases hopen : leftOpen (activationNesting name.value) front = [] <;> simp [hkeyword, hopen]
  | nextOperand keyword label =>
    simp only [complaint?, Unmatched, openAfter_iff]
    split <;> simp_all
  | closeFragment keyword =>
    simp only [complaint?, Unmatched, openAfter_iff]
    split <;> simp_all
  | _ => simp [complaint?, Unmatched]

instance (front : List Statement) (statement : Statement) : Decidable (statement.Unmatched front) :=
  decidable_of_iff _ (complaint?_isSome_iff front statement)

/-- The event that a statement adds, given those in front of it. -/
def event? (front : List Statement) (statement : Statement) : Option Event :=
  if statement.Unmatched front then none else statement.told?

/-- The events that statements add, in order, given those in front of them. -/
def events (front : List Statement) : List Statement → List Event
  | [] => []
  | statement :: rest => (statement.event? front).toList ++ events (front ++ [statement]) rest

/-- Exactly the fragments that stay open to the end are reported there. -/
theorem unclosed?_isSome_iff (back : List Statement) (statement : Statement) :
    (statement.unclosed? back).isSome ↔
      fragmentNesting statement = .opening ∧ StaysOpen fragmentNesting back := by
  cases statement with
  | openFragment keyword label =>
    simp only [unclosed?, fragmentNesting, staysOpen_iff]
    split <;> simp_all
  | activation keyword name => simp [unclosed?, fragmentNesting]
  | _ => simp [unclosed?, fragmentNesting]

theorem length_unclosed (statements : List Statement) :
    (unclosed statements).length = (leftOpen fragmentNesting statements).length := by
  induction statements with
  | nil => rfl
  | cons statement rest ih =>
    have hreported := unclosed?_isSome_iff rest statement
    rw [staysOpen_iff] at hreported
    by_cases hopen : fragmentNesting statement = .opening ∧ surplus fragmentNesting rest = 0
    · obtain ⟨problem, hproblem⟩ := Option.isSome_iff_exists.1 (hreported.2 hopen)
      rw [unclosed, leftOpen, if_pos hopen, hproblem]
      simp [ih]
    · have hnone : statement.unclosed? rest = none := by
        rw [← Option.not_isSome_iff_eq_none]
        exact mt hreported.1 hopen
      rw [unclosed, leftOpen, if_neg hopen, hnone]
      simp [ih]

end Statement

/-- The events of an operand and of the ones in front of it in its fragment, up to the place where the
    operand begins. -/
def Enclosure.events (enclosure : Enclosure) : List Event :=
  enclosure.before.events ++
    .opening enclosure.kind (enclosure.finished.push enclosure.guard .empty).label ::
      (enclosure.finished.push enclosure.guard .empty).events true

theorem Body.events_push (body : Body) (element : Element) :
    (body.push element).events = body.events ++ (element.cons .empty).events :=
  events_append body (element.cons .empty)

theorem Enclosure.events_fill (enclosure : Enclosure) (body : Body) :
    (enclosure.fill body).events = enclosure.events ++ body.events ++ [.closing] := by
  rw [fill, Body.events_push, Element.cons, Body.events, Body.events, enclosure.finished.label_push_body,
    enclosure.finished.events_push_body, events]
  simp

namespace Builder

variable {builder : Builder}

/-- No fragment has been given up without leaving it. -/
def Settled (builder : Builder) : Prop :=
  builder.abandoned = [] ∧ ∀ fragment ∈ builder.opened, fragment.abandoned = []

/-- The events so far. -/
def told (builder : Builder) : List Event :=
  builder.opened.reverse.flatMap (·.enclosure.events) ++ builder.body.events

@[simp] theorem ensure_body (builder : Builder) (name : String) :
    (builder.ensure name).body = builder.body := by
  obtain ⟨participants, hensure⟩ := ensure_eq builder name
  rw [hensure]

@[simp] theorem ensure_abandoned (builder : Builder) (name : String) :
    (builder.ensure name).abandoned = builder.abandoned := by
  obtain ⟨participants, hensure⟩ := ensure_eq builder name
  rw [hensure]

/-- The fragments that are still open close where the builder stands. -/
theorem content_events (hsettled : builder.Settled) :
    builder.content.events = builder.told ++ List.replicate builder.opened.length .closing := by
  obtain ⟨habandoned, hopened⟩ := hsettled
  have hfill (opened : List OpenFragment) (body : Body)
      (hopened : ∀ fragment ∈ opened, fragment.abandoned = []) :
      (opened.foldl (fun inner fragment =>
        Enclosure.fillAll fragment.abandoned (fragment.enclosure.fill inner)) body).events =
        opened.reverse.flatMap (·.enclosure.events) ++ body.events ++
          List.replicate opened.length .closing := by
    induction opened generalizing body with
    | nil => simp
    | cons fragment outer ih =>
      obtain ⟨hfragment, houter⟩ := List.forall_mem_cons.1 hopened
      rw [List.foldl_cons, hfragment, ih _ houter, Enclosure.fillAll, List.foldl_nil,
        Enclosure.events_fill]
      simp [List.replicate_succ]
  rw [content, hfill _ _ hopened, habandoned]
  rfl

theorem after_settled (hsettled : builder.Settled) (statement : Statement) :
    (builder.after statement).Settled := by
  obtain ⟨habandoned, hopened⟩ := hsettled
  cases statement with
  | setTitle => exact ⟨habandoned, hopened⟩
  | declare name label =>
    obtain ⟨participants, hdeclare⟩ := declare_eq builder name.value label
    rw [after, hdeclare]
    exact ⟨habandoned, hopened⟩
  | mention name => simpa [after, Settled] using And.intro habandoned hopened
  | signal => simpa [after, push, Settled] using And.intro habandoned hopened
  | activation keyword name =>
    simp only [after, activate, deactivate]
    split
    · simpa [push, Settled] using And.intro habandoned hopened
    · split <;> exact ⟨habandoned, hopened⟩
  | openFragment keyword label => exact ⟨rfl, List.forall_mem_cons.2 ⟨habandoned, hopened⟩⟩
  | nextOperand keyword label =>
    simp only [after, nextOperand]
    split
    · exact ⟨habandoned, hopened⟩
    · next fragment outer hcons =>
      rw [hcons] at hopened
      obtain ⟨hfragment, houter⟩ := List.forall_mem_cons.1 hopened
      exact ⟨rfl, List.forall_mem_cons.2 ⟨hfragment, houter⟩⟩
  | closeFragment keyword =>
    simp only [after, closeFragment]
    split
    · exact ⟨habandoned, hopened⟩
    · next fragment outer hcons =>
      rw [hcons] at hopened
      exact List.forall_mem_cons.1 hopened
  | unknown => exact ⟨habandoned, hopened⟩

theorem push_told (builder : Builder) (element : Element) :
    (builder.push element).told = builder.told ++ (element.cons .empty).events := by
  simp [told, push, Body.events_push]

theorem enter_told (builder : Builder) (kind guard : String) (token : Option Token) :
    (builder.enter kind guard token).told = builder.told ++ [.opening kind guard] := by
  simp [told, enter, Enclosure.events, Operands.push, Operands.events, Operands.label, Body.events]

theorem turn_told (hsettled : builder.Settled) {fragment : OpenFragment} {outer : List OpenFragment}
    (hopened : builder.opened = fragment :: outer) (guard : String) :
    (builder.turn fragment outer guard).told = builder.told ++ [.next guard] := by
  have hnext := @Operands.events_push _ true
    (.inr (fragment.enclosure.finished.push_ne_none fragment.enclosure.guard builder.body)) guard .empty
  rw [fragment.enclosure.finished.events_push_body] at hnext
  simp [told, turn, hopened, hsettled.1, Enclosure.fillAll, Enclosure.events, hnext,
    Operands.label_push_push, Body.events]

theorem leave_told (hsettled : builder.Settled) {fragment : OpenFragment} {outer : List OpenFragment}
    (hopened : builder.opened = fragment :: outer) :
    (builder.leave fragment outer).told = builder.told ++ [.closing] := by
  simp [told, leave, hopened, hsettled.1, Enclosure.fillAll, Enclosure.events_fill]

/-- A statement adds its event to those so far, at the end. -/
theorem after_told {front : List Statement} (hsettled : builder.Settled)
    (hopened : builder.opened ≠ [] ↔ OpenAfter Statement.fragmentNesting front)
    (hactive : ∀ name,
      name ∈ builder.active ↔ OpenAfter (Statement.activationNesting name) front)
    (statement : Statement) :
    (builder.after statement).told = builder.told ++ (statement.event? front).toList := by
  cases statement with
  | setTitle => simp [after, told, Statement.event?, Statement.told?]
  | declare name label =>
    obtain ⟨participants, hdeclare⟩ := declare_eq builder name.value label
    simp [after, hdeclare, told, Statement.event?, Statement.told?]
  | mention name => simp [after, told, Statement.event?, Statement.told?]
  | signal source arrow target label =>
    rw [after, push_told]
    simp [told, Element.cons, Body.events, Statement.event?, Statement.Unmatched, Statement.told?]
  | activation keyword name =>
    simp only [after, activate, deactivate, Statement.event?, Statement.Unmatched, ← hactive,
      Statement.told?]
    by_cases hkeyword : keyword.value = Keyword.activate.word
    · simp only [hkeyword, if_true]
      rw [push_told]
      simp [told, Element.cons, Body.events]
    · by_cases hname : name.value ∈ builder.active
      · simp only [hkeyword, hname, if_true, if_false]
        rw [push_told]
        simp [told, Element.cons, Body.events]
      · simp [hkeyword, hname, record, told]
  | openFragment keyword label =>
    rw [after, enter_told]
    simp [Statement.event?, Statement.Unmatched, Statement.told?]
  | nextOperand keyword label =>
    simp only [after, nextOperand, Statement.event?, Statement.Unmatched, ← hopened]
    split
    · next hnone => simp [hnone, record, told]
    · next hsome =>
      rw [turn_told hsettled hsome]
      simp [hsome, Statement.told?]
  | closeFragment keyword =>
    simp only [after, closeFragment, Statement.event?, Statement.Unmatched, ← hopened]
    split
    · next hnone => simp [hnone, record, told]
    · next hsome =>
      rw [leave_told hsettled hsome]
      simp [hsome, Statement.told?]
  | unknown => simp [after, told, Statement.event?, Statement.told?]

theorem foldl_after_settled (hsettled : builder.Settled) (statements : List Statement) :
    (statements.foldl after builder).Settled :=
  List.foldlRecOn statements after hsettled fun _ hbuilder statement _ =>
    after_settled hbuilder statement

theorem ofDiagram_settled (start : Diagram) : (ofDiagram start).Settled :=
  ⟨rfl, by simp [ofDiagram]⟩

/-- A new builder adds to what it starts with the events of the statements, in their order. -/
theorem foldl_after_told (start : Diagram) (front statements : List Statement) :
    ((front ++ statements).foldl after (ofDiagram start)).told =
      (front.foldl after (ofDiagram start)).told ++ Statement.events front statements := by
  induction statements generalizing front with
  | nil => simp [Statement.events]
  | cons statement rest ih =>
    have hopened := (foldl_after_opened start front).trans (openAfter_iff _ front).symm
    have hactive (name : String) :=
      (mem_foldl_after_active start front name).trans (openAfter_iff _ front).symm
    have hstatement := after_told (foldl_after_settled (ofDiagram_settled start) front) hopened hactive statement
    calc ((front ++ statement :: rest).foldl after (ofDiagram start)).told
      _ = ((front ++ [statement] ++ rest).foldl after (ofDiagram start)).told := by
        rw [List.append_assoc, List.singleton_append]
      _ = ((front ++ [statement]).foldl after (ofDiagram start)).told ++
          Statement.events (front ++ [statement]) rest := ih (front ++ [statement])
      _ = (front.foldl after (ofDiagram start)).told ++ Statement.events front (statement :: rest) := by
        rw [List.foldl_concat, hstatement, Statement.events, List.append_assoc]

theorem foldl_after_opened_length (start : Diagram) (statements : List Statement) :
    (statements.foldl after (ofDiagram start)).opened.length = (Statement.unclosed statements).length := by
  have hfragments := congrArg List.length (foldl_after_fragments start statements)
  rw [fragments, List.length_map, List.length_reverse, List.length_map] at hfragments
  rw [hfragments, Statement.length_unclosed]

theorem foldl_after_content_events (statements : List Statement) :
    (statements.foldl after (ofDiagram {})).content.events = Statement.events [] statements ++
      List.replicate (Statement.unclosed statements).length .closing := by
  have htold : (statements.foldl after (ofDiagram {})).told = Statement.events [] statements :=
    foldl_after_told {} [] statements
  rw [content_events (foldl_after_settled (ofDiagram_settled {}) statements), htold,
    foldl_after_opened_length]

end Builder

/-- A new diagram holds exactly the events of the statements that are not unmatched, in their order,
    and the fragments that they leave open close at its end. The unmatched statements are reported
    in their order, and after them the fragments left open, from the innermost on. -/
theorem Diagram.build_course {statements : List Statement}
    (hcomplete : ∀ statement ∈ statements, statement.Complete) :
    ∃ diagram, Diagram.build statements {} =
        .ok (diagram, Statement.complaints [] statements ++ (Statement.unclosed statements).reverse) ∧
      diagram.content.body.events = Statement.events [] statements ++
        List.replicate (Statement.unclosed statements).length .closing ∧
      ∀ front statement back, statements = front ++ statement :: back →
        ((statement.complaint? front).isSome ↔ statement.Unmatched front) ∧
        ((statement.unclosed? back).isSome ↔ Statement.fragmentNesting statement = .opening ∧
          StaysOpen Statement.fragmentNesting back) :=
  ⟨_, Diagram.build_eq_ok {} hcomplete, Builder.foldl_after_content_events statements,
    fun front statement back _ => ⟨Statement.complaint?_isSome_iff front statement,
      Statement.unclosed?_isSome_iff back statement⟩⟩

theorem Diagram.build_course_unmatched :
    let statements : List Statement := [.closeFragment ⟨.keyword .close, "end", 1, 1, 0, 3⟩,
      .openFragment ⟨.keyword (.fragment .alt), "alt", 2, 1, 4, 3⟩ none,
      .activation ⟨.keyword .deactivate, "deactivate", 3, 1, 8, 10⟩ ⟨.name, "A", 3, 12, 19, 1⟩,
      .nextOperand ⟨.keyword .elseOperand, "else", 4, 1, 21, 4⟩ (some ⟨.text, "late", 4, 6, 26, 4⟩),
      .signal ⟨.name, "A", 5, 1, 31, 1⟩ ⟨.arrow, "->", 5, 3, 33, 2⟩ ⟨.name, "B", 5, 6, 36, 1⟩ none]
    (∀ statement ∈ statements, statement.Complete) ∧
      ∃ diagram, Diagram.build statements {} = .ok (diagram,
          Statement.complaints [] statements ++ (Statement.unclosed statements).reverse) ∧
        diagram.content.body.events = Statement.events [] statements ++
          List.replicate (Statement.unclosed statements).length .closing ∧
        ∀ front statement back, statements = front ++ statement :: back →
          ((statement.complaint? front).isSome ↔ statement.Unmatched front) ∧
          ((statement.unclosed? back).isSome ↔ Statement.fragmentNesting statement = .opening ∧
            StaysOpen Statement.fragmentNesting back) := by
  intro statements
  have hcomplete : ∀ statement ∈ statements, statement.Complete := by
    simp [statements, Statement.Complete]
  exact ⟨hcomplete, build_course hcomplete⟩

/-- A fragment that is left open closes after what has been told of it, and what is unmatched tells
    nothing. -/
example :
    let statements : List Statement := [.closeFragment ⟨.keyword .close, "end", 1, 1, 0, 3⟩,
      .openFragment ⟨.keyword (.fragment .alt), "alt", 2, 1, 4, 3⟩ none,
      .nextOperand ⟨.keyword .elseOperand, "else", 4, 1, 21, 4⟩ (some ⟨.text, "late", 4, 6, 26, 4⟩)]
    Statement.events [] statements ++ List.replicate (Statement.unclosed statements).length .closing =
      [.opening "alt" "", .next "late", .closing] := by
  decide

end SequenceChart
