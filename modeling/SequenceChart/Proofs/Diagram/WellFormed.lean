import Mathlib.Data.List.Induction
import SequenceChart.Proofs.Diagram.Course
import SequenceChart.Proofs.Diagram.Exact
import SequenceChart.Proofs.Diagram.Mentions

namespace SequenceChart

open Nesting

/-- A fragment has an operand and is of one of the kinds. -/
def Fragment.Formed (fragment : Fragment) : Prop :=
  fragment.operands ≠ .none ∧ ∃ kind : FragmentKind, fragment.kind = kind.word

/-- At no point of a course has an activation ended that has not begun. -/
def Event.Balanced (course : List Event) : Prop :=
  ∀ name front, front <+: course →
    front.count (.activation name false) ≤ front.count (.activation name true)

/-- What a diagram promises to those who lay it out. -/
structure Diagram.WellFormed (diagram : Diagram) : Prop where
  distinct : diagram.names.Nodup
  named : ∀ participant ∈ diagram.participants, participant.name ≠ "" ∧ participant.label ≠ ""
  refers : ∀ name ∈ diagram.content.body.named, name ∈ diagram.names
  formed : ∀ fragment ∈ diagram.content.body.fragments 0, fragment.Formed
  balanced : Event.Balanced diagram.content.body.events

def Body.Formed (body : Body) : Prop :=
  ∀ depth, ∀ fragment ∈ body.fragments depth, fragment.Formed

def Operands.Formed (operands : Operands) : Prop :=
  ∀ depth, ∀ fragment ∈ operands.fragments depth, fragment.Formed

def Enclosure.Formed (enclosure : Enclosure) : Prop :=
  enclosure.before.Formed ∧ enclosure.finished.Formed ∧
    ∃ kind : FragmentKind, enclosure.kind = kind.word

/-- A fragment is opened with the word of its kind. -/
def Statement.HasKind : Statement → Prop
  | .openFragment keyword _ => ∃ kind : FragmentKind, keyword.value = kind.word
  | _ => True

theorem Operands.push_formed {operands : Operands} {body : Body} (hoperands : operands.Formed)
    (hbody : body.Formed) (guard : String) : (operands.push guard body).Formed := by
  intro depth fragment hfragment
  rw [fragments_push, List.mem_append] at hfragment
  exact hfragment.elim (hoperands depth fragment) (hbody depth fragment)

theorem Body.empty_formed : Body.empty.Formed := by
  intro depth fragment hfragment
  cases hfragment

theorem Body.append_formed {front back : Body} (hfront : front.Formed) (hback : back.Formed) :
    (front ++ back).Formed := by
  intro depth fragment hfragment
  rw [fragments_append, List.mem_append] at hfragment
  exact hfragment.elim (hfront depth fragment) (hback depth fragment)

theorem Enclosure.fill_formed {enclosure : Enclosure} {body : Body} (henclosure : enclosure.Formed)
    (hbody : body.Formed) : (enclosure.fill body).Formed := by
  obtain ⟨hbefore, hfinished, hkind⟩ := henclosure
  refine Body.append_formed hbefore fun depth fragment hfragment => ?_
  simp only [Element.cons, Body.fragments, List.append_nil, List.mem_cons] at hfragment
  obtain rfl | hfragment := hfragment
  · exact ⟨enclosure.finished.push_ne_none enclosure.guard body, hkind⟩
  · exact Operands.push_formed hfinished hbody enclosure.guard (depth + 1) fragment hfragment

namespace Builder

variable {builder : Builder}

/-- Every fragment that the builder has made or begun is formed. -/
def Formed (builder : Builder) : Prop :=
  builder.body.Formed ∧ ∀ fragment ∈ builder.opened, fragment.enclosure.Formed

theorem content_formed (hsettled : builder.Settled) (hformed : builder.Formed) :
    builder.content.Formed := by
  obtain ⟨habandoned, hopened⟩ := hsettled
  obtain ⟨hbody, henclosures⟩ := hformed
  have hfill (opened : List OpenFragment) (body : Body) (hbody : body.Formed)
      (hopened : ∀ fragment ∈ opened, fragment.abandoned = [])
      (henclosures : ∀ fragment ∈ opened, fragment.enclosure.Formed) :
      (opened.foldl (fun inner fragment =>
        Enclosure.fillAll fragment.abandoned (fragment.enclosure.fill inner)) body).Formed := by
    induction opened generalizing body with
    | nil => exact hbody
    | cons fragment outer ih =>
      obtain ⟨hfragment, houter⟩ := List.forall_mem_cons.1 hopened
      obtain ⟨henclosure, houters⟩ := List.forall_mem_cons.1 henclosures
      rw [List.foldl_cons, hfragment]
      exact ih _ (Enclosure.fill_formed henclosure hbody) houter houters
  rw [content, habandoned]
  exact hfill builder.opened builder.body hbody hopened henclosures

theorem push_formed (hformed : builder.Formed) {element : Element}
    (helement : (element.cons .empty).Formed) : (builder.push element).Formed :=
  ⟨Body.append_formed hformed.1 helement, hformed.2⟩

theorem after_formed (hsettled : builder.Settled) (hformed : builder.Formed) {statement : Statement}
    (hkind : statement.HasKind) : (builder.after statement).Formed := by
  have hplain {element : Element} (helement : ∀ depth, (element.cons .empty).fragments depth = []) :
      (element.cons .empty).Formed := by
    intro depth fragment hfragment
    rw [helement] at hfragment
    cases hfragment
  have hensure {name : String} (hformed : builder.Formed) : (builder.ensure name).Formed := by
    simpa [Formed] using hformed
  cases statement with
  | setTitle => exact hformed
  | declare name label =>
    obtain ⟨participants, hdeclare⟩ := declare_eq builder name.value label
    rw [after, hdeclare]
    exact hformed
  | mention name => exact hensure hformed
  | signal source arrow target label =>
    refine push_formed ?_ (hplain fun depth => rfl)
    simpa [Formed] using hformed
  | activation keyword name =>
    simp only [after, activate, deactivate]
    split
    · exact push_formed (hensure hformed) (hplain fun depth => rfl)
    · split
      · exact push_formed hformed (hplain fun depth => rfl)
      · exact hformed
  | openFragment keyword label =>
    have hnone : Operands.none.Formed := fun depth fragment hfragment => by cases hfragment
    exact ⟨Body.empty_formed, List.forall_mem_cons.2 ⟨⟨hformed.1, hnone, hkind⟩, hformed.2⟩⟩
  | nextOperand keyword label =>
    simp only [after, nextOperand]
    split
    · exact hformed
    · next fragment outer hopened =>
      obtain ⟨hbody, henclosures⟩ := hformed
      rw [hopened] at henclosures
      obtain ⟨⟨hbefore, hfinished, hkind⟩, houter⟩ := List.forall_mem_cons.1 henclosures
      rw [turn, hsettled.1]
      have hpushed := Operands.push_formed hfinished hbody fragment.enclosure.guard
      exact ⟨Body.empty_formed, List.forall_mem_cons.2 ⟨⟨hbefore, hpushed, hkind⟩, houter⟩⟩
  | closeFragment keyword =>
    simp only [after, closeFragment]
    split
    · exact hformed
    · next fragment outer hopened =>
      obtain ⟨hbody, henclosures⟩ := hformed
      rw [hopened] at henclosures
      obtain ⟨henclosure, houter⟩ := List.forall_mem_cons.1 henclosures
      rw [leave, hsettled.1]
      exact ⟨Enclosure.fill_formed henclosure hbody, houter⟩
  | unknown => exact hformed

theorem foldl_after_formed (hsettled : builder.Settled) (hformed : builder.Formed)
    {statements : List Statement} (hkinds : ∀ statement ∈ statements, statement.HasKind) :
    (statements.foldl after builder).Formed :=
  have hboth : (statements.foldl after builder).Settled ∧ (statements.foldl after builder).Formed :=
    List.foldlRecOn (motive := fun builder => builder.Settled ∧ builder.Formed) statements after
      ⟨hsettled, hformed⟩ fun _ hbuilder statement hmem =>
        ⟨after_settled hbuilder.1 statement, after_formed hbuilder.1 hbuilder.2 (hkinds statement hmem)⟩
  hboth.2

end Builder

namespace Event

theorem balanced_concat {course : List Event} (hbalanced : Balanced course) {event : Event}
    (hcount : ∀ name, (course ++ [event]).count (.activation name false) ≤
      (course ++ [event]).count (.activation name true)) : Balanced (course ++ [event]) := by
  intro name front hfront
  obtain rfl | hfront := List.prefix_concat_iff.1 hfront
  · exact hcount name
  · exact hbalanced name front hfront

theorem balanced_closings {course : List Event} (hbalanced : Balanced course) (n : Nat) :
    Balanced (course ++ List.replicate n .closing) := by
  induction n with
  | zero => simpa using hbalanced
  | succ n ih =>
    rw [List.replicate_succ', ← List.append_assoc]
    refine balanced_concat ih fun name => ?_
    simpa [List.count_replicate] using hbalanced name course List.prefix_rfl

end Event

namespace Statement

theorem events_concat (front statements : List Statement) (statement : Statement) :
    events front (statements ++ [statement]) =
      events front statements ++ (statement.event? (front ++ statements)).toList := by
  induction statements generalizing front with
  | nil => simp [events]
  | cons first rest ih => simp [events, ih]

/-- Of the activations of a name that have begun, those that have not ended are open. -/
theorem count_activations (statements : List Statement) (name : String) :
    (events [] statements).count (.activation name true) =
      (events [] statements).count (.activation name false) +
        (leftOpen (activationNesting name) statements).length := by
  induction statements using List.reverseRecOn with
  | nil => rfl
  | append_singleton statements statement ih =>
    rw [events_concat, List.nil_append, List.count_append, List.count_append,
      length_leftOpen_concat, ih]
    cases statement with
    | activation keyword other =>
      simp only [event?, Unmatched, told?, activationNesting, openAfter_iff]
      by_cases hname : other.value = name
      · subst hname
        by_cases hkeyword : keyword.value = Keyword.activate.word
        · simp [hkeyword, Nat.add_assoc]
        · by_cases hopen : leftOpen (activationNesting other.value) statements = []
          · simp [hkeyword, hopen]
          · have hlength := Nat.add_sub_cancel' (List.length_pos_iff.2 hopen)
            simp [hkeyword, hopen, Nat.add_assoc, hlength]
      · split <;> simp [hname]
    | _ =>
      simp only [event?, told?, activationNesting]
      split <;> simp

theorem events_balanced (statements : List Statement) : Event.Balanced (events [] statements) := by
  induction statements using List.reverseRecOn with
  | nil => simp [events, Event.Balanced]
  | append_singleton statements statement ih =>
    have hcount := count_activations (statements ++ [statement])
    rw [events_concat] at hcount ⊢
    cases hevent : statement.event? ([] ++ statements) with
    | none => simpa using ih
    | some event =>
      rw [hevent] at hcount
      exact Event.balanced_concat ih fun name => by
        have hname := hcount name
        simp only [Option.toList_some] at hname
        omega

/-- Who an event refers to has been mentioned by the statement that adds it, or in front of it. -/
theorem mem_mentions_of_event? {front : List Statement} {statement : Statement} {event : Event}
    (hevent : statement.event? front = some event) {name : String} (hname : name ∈ event.names) :
    name ∈ (front ++ [statement]).flatMap mentions := by
  rw [List.flatMap_append, List.flatMap_singleton, List.mem_append]
  unfold event? at hevent
  split at hevent
  · cases hevent
  · next hmatched =>
    cases statement with
    | signal source arrow target label =>
      cases hevent
      exact .inr hname
    | activation keyword other =>
      cases hevent
      obtain rfl : name = other.value := by simpa [Event.names] using hname
      by_cases hkeyword : keyword.value = Keyword.activate.word
      · simp [mentions, hkeyword]
      · -- What ends has been begun in front of the statement, which mentioned the name.
        have hopen : OpenAfter (activationNesting other.value) front := by
          simpa [Unmatched, hkeyword] using hmatched
        obtain ⟨before, opener, back, rfl, hopening, _⟩ := hopen
        cases opener with
        | activation begin target =>
          simp only [activationNesting] at hopening
          split at hopening
          · cases hopening
          · next htarget =>
            split at hopening
            · next hbegin => simp_all [mentions]
            · cases hopening
        | _ => cases hopening
    | openFragment keyword label =>
      cases hevent
      cases hname
    | nextOperand keyword label =>
      cases hevent
      cases hname
    | closeFragment keyword =>
      cases hevent
      cases hname
    | _ => cases hevent

theorem mem_mentions_of_events {front statements : List Statement} {event : Event}
    (hevent : event ∈ events front statements) {name : String} (hname : name ∈ event.names) :
    name ∈ (front ++ statements).flatMap mentions := by
  induction statements generalizing front with
  | nil => cases hevent
  | cons statement rest ih =>
    rw [events, List.mem_append, Option.mem_toList] at hevent
    obtain hevent | hevent := hevent
    · have hmentioned := mem_mentions_of_event? hevent hname
      simp only [List.flatMap_append, List.flatMap_cons, List.mem_append] at hmentioned ⊢
      tauto
    · have hmentioned := ih hevent
      rwa [List.append_assoc, List.singleton_append] at hmentioned

end Statement

namespace Diagram

/-- What statements make of a new diagram is well formed, provided that none of them is refused, that
    labels have characters, and that fragments are of the kinds. -/
theorem foldl_after_wellFormed {statements : List Statement}
    (hcomplete : ∀ statement ∈ statements, statement.Complete)
    (hlabelled : ∀ statement ∈ statements, statement.Labelled)
    (hkinds : ∀ statement ∈ statements, statement.HasKind) :
    (statements.foldl Builder.after (Builder.ofDiagram {})).diagram.WellFormed := by
  have hsettled := Builder.ofDiagram_settled {}
  have hevents := Builder.foldl_after_content_events statements
  have hnames : (statements.foldl Builder.after (Builder.ofDiagram {})).names =
      (statements.flatMap Statement.mentions).foldl register [] :=
    Builder.foldl_after_names (Builder.ofDiagram {}) statements
  refine ⟨?_, ?_, ?_, ?_, ?_⟩
  · change (statements.foldl Builder.after (Builder.ofDiagram {})).names.Nodup
    rw [hnames]
    exact nodup_foldl_register List.nodup_nil _
  · exact Builder.foldl_after_named (fun participant hparticipant => by cases hparticipant)
      hcomplete hlabelled
  · intro name hname
    change name ∈ (statements.foldl Builder.after (Builder.ofDiagram {})).names
    rw [hnames, mem_foldl_register]
    rw [Body.named_eq] at hname
    change name ∈ (statements.foldl Builder.after (Builder.ofDiagram {})).content.events.flatMap
      Event.names at hname
    rw [hevents, List.flatMap_append, List.mem_append] at hname
    obtain hname | hname := hname
    · obtain ⟨event, hevent, hname⟩ := List.mem_flatMap.1 hname
      exact .inr (Statement.mem_mentions_of_events hevent hname)
    · simp [Event.names] at hname
  · have hstart : (Builder.ofDiagram {}).Formed :=
      ⟨Body.empty_formed, fun fragment hfragment => by cases hfragment⟩
    exact Builder.content_formed (Builder.foldl_after_settled hsettled statements)
      (Builder.foldl_after_formed hsettled hstart hkinds) 0
  · change Event.Balanced (statements.foldl Builder.after (Builder.ofDiagram {})).content.events
    rw [hevents]
    exact Event.balanced_closings (Statement.events_balanced statements) _

theorem sound_of_statement? {text : String} {line : TokenLine} (hline : line ∈ TokenLine.ofText text)
    {statement : Statement} (hstatement : line.statement? = some statement) :
    statement.Complete ∧ statement.Labelled ∧ statement.HasKind := by
  have hform := TokenLine.form_of_statement? hstatement
  have hvalue (token : Token) (htoken : token ∈ line.body) :=
    Token.value_of_mem_ofText ((TokenLine.mem_of_mem_ofTokens hline).1 token htoken).1
  refine ⟨hform.complete, ?_, ?_⟩
  · generalize line.body = body at hform hvalue
    cases hform with
    | @declareAs keyword name as label hkeyword hname has hlabel =>
      rintro text ⟨rfl⟩
      exact (hvalue label (by simp)).1 (.inr hlabel)
    | declare => rintro text ⟨⟩
    | _ => trivial
  · generalize line.body = body at hform hvalue
    cases hform with
    | @openFragment keyword kind label hkeyword hlabel =>
      exact ⟨kind, (hvalue keyword (by simp)).2 (.fragment kind) hkeyword⟩
    | _ => trivial

theorem foldl_after_ofText_wellFormed (text : String) :
    ((TokenLine.statements (TokenLine.ofText text)).foldl Builder.after
      (Builder.ofDiagram {})).diagram.WellFormed := by
  have hsound : ∀ statement ∈ TokenLine.statements (TokenLine.ofText text),
      statement.Complete ∧ statement.Labelled ∧ statement.HasKind := by
    intro statement hstatement
    obtain ⟨line, hline, hstatement⟩ := List.mem_filterMap.1 hstatement
    exact sound_of_statement? hline hstatement
  exact foldl_after_wellFormed (fun statement h => (hsound statement h).1)
    (fun statement h => (hsound statement h).2.1) (fun statement h => (hsound statement h).2.2)

/-- The diagram of every text is well formed, whatever problems there are with the text. -/
theorem ofText_wellFormed (text : String) :
    ∃ diagram problems, ofText text = .ok (diagram, problems) ∧ diagram.WellFormed :=
  ⟨_, _, ofText_eq_ok text, foldl_after_ofText_wellFormed text⟩

end Diagram

end SequenceChart
