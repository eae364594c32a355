import SequenceChart.Proofs.Diagram.Aliases
import SequenceChart.Proofs.Diagram.WellFormed
import SequenceChart.Proofs.Drawing.Texts
import SequenceChart.Proofs.Token.Lossless

namespace SequenceChart

/-- The value of a token of a text consists of characters of the text, unless it is a line break, which
    has the same value whichever way it is written. -/
theorem Token.value_subset {text : String} {token : Token} (htoken : token ∈ ofText text)
    (hkind : token.kind ≠ .lineBreak) : token.value.toList ⊆ text.toList := by
  have hslice : token.slice text.toList ⊆ text.toList :=
    List.Subset.trans (List.take_subset ..) (List.drop_subset ..)
  refine List.Subset.trans (fun c hc => ?_) hslice
  have hspelled := (ofText_lossless text).spelled token htoken
  unfold Spells at hspelled
  split at hspelled
  · next hbreak => exact absurd hbreak hkind
  · rw [hspelled]
    split
    · exact List.mem_cons_of_mem _ (List.mem_append_left _ hc)
    · exact hc
  · rwa [hspelled]

/-- The texts that an event brings along. -/
def Event.texts : Event → List String
  | .signal message => [message.label]
  | .activation _ _ | .closing => []
  | .opening kind guard => [kind, guard]
  | .next guard => [guard]

namespace Statement

/-- The texts that a statement brings along. -/
def texts : Statement → List String
  | .setTitle _ title => title.toList
  | .declare name label => name.value :: label.toList.map Token.value
  | .mention name => [name.value]
  | .signal source _ target label => source.value :: target.value :: label.toList.map Token.value
  | .activation _ name => [name.value]
  | .openFragment keyword label => keyword.value :: label.toList.map Token.value
  | .nextOperand _ label => label.toList.map Token.value
  | .closeFragment _ | .unknown => []

theorem textOf_mem (label : Option Token) (front : List String) :
    textOf label ∈ "" :: (front ++ label.toList.map Token.value) := by
  cases label <;> simp [textOf]

theorem mentions_subset (statement : Statement) : statement.mentions ⊆ statement.texts := by
  cases statement with
  | activation keyword name =>
    simp only [mentions, texts]
    split
    · exact List.Subset.refl _
    · exact List.nil_subset _
  | _ => simp [mentions, texts]

/-- The texts of the event that a statement adds are its own, or there is none where one could be. -/
theorem texts_of_told? {statement : Statement} {event : Event} (htold : statement.told? = some event) :
    event.texts ⊆ "" :: statement.texts := by
  cases statement with
  | signal source arrow target label =>
    cases htold
    exact List.cons_subset.2 ⟨textOf_mem label [source.value, target.value], List.nil_subset _⟩
  | openFragment keyword label =>
    cases htold
    exact List.cons_subset.2 ⟨List.mem_cons_of_mem _ List.mem_cons_self,
      List.cons_subset.2 ⟨textOf_mem label [keyword.value], List.nil_subset _⟩⟩
  | nextOperand keyword label =>
    cases htold
    exact List.cons_subset.2 ⟨textOf_mem label [], List.nil_subset _⟩
  | activation | closeFragment =>
    cases htold
    exact List.nil_subset _
  | _ => cases htold

theorem told?_of_mem_events {front statements : List Statement} {event : Event}
    (hevent : event ∈ events front statements) :
    ∃ statement ∈ statements, statement.told? = some event := by
  induction statements generalizing front with
  | nil => cases hevent
  | cons statement rest ih =>
    rw [events, List.mem_append, Option.mem_toList] at hevent
    obtain hevent | hevent := hevent
    · refine ⟨statement, List.mem_cons_self, ?_⟩
      unfold event? at hevent
      split at hevent
      · cases hevent
      · exact hevent
    · obtain ⟨found, hfound, htold⟩ := ih hevent
      exact ⟨found, List.mem_cons_of_mem _ hfound, htold⟩

theorem alias?_mem_texts {statement : Statement} {name label : String}
    (halias : statement.alias? name = some label) : label ∈ statement.texts := by
  cases statement with
  | declare declared text =>
    simp only [alias?] at halias
    split at halias
    · cases text <;> simp_all [texts]
    · cases halias
  | _ => cases halias

end Statement

/-- The texts of a statement are values of tokens of its line. -/
theorem TokenLine.Form.texts {line : List Token} {statement : Statement}
    (hform : TokenLine.Form line statement) : statement.texts ⊆ line.map Token.value := by
  cases hform with
  | labelledSignal =>
    exact List.cons_subset_cons _ (List.subset_cons_of_subset _ (List.cons_subset_cons _
      (List.subset_cons_of_subset _ (List.Subset.refl _))))
  | nextOperand => exact List.subset_cons_of_subset _ (List.Subset.refl _)
  | _ => simp [Statement.texts]

/-- The signal that an event is. -/
def Event.message? : Event → Option Signal
  | .signal message => some message
  | _ => none

mutual

/-- The signals in a body are those among its events. -/
theorem Body.signals_eq : ∀ body : Body, body.signals = body.events.filterMap Event.message?
  | .empty => rfl
  | .signal message rest => by
    simp [Body.signals, Body.events, Event.message?, rest.signals_eq]
  | .activation name starts rest => by
    simp [Body.signals, Body.events, Event.message?, rest.signals_eq, List.filterMap_cons]
  | .fragment kind operands rest => by
    simp [Body.signals, Body.events, Event.message?, rest.signals_eq, operands.signals_eq true,
      List.filterMap_cons]

theorem Operands.signals_eq : ∀ (operands : Operands) (isFirst : Bool),
    operands.signals = (operands.events isFirst).filterMap Event.message?
  | .none, _ => rfl
  | .cons guard body rest, isFirst => by
    cases isFirst <;>
      simp [Operands.signals, Operands.events, Event.message?, body.signals_eq, rest.signals_eq false,
        List.filterMap_cons]

end

/-- The opening of a fragment, and what happens in it. -/
def Fragment.events (fragment : Fragment) : List Event :=
  .opening fragment.kind fragment.operands.label :: fragment.operands.events true

mutual

theorem Body.fragment_events_subset : ∀ (body : Body) (depth : Nat),
    ∀ fragment ∈ body.fragments depth, fragment.events ⊆ body.events
  | .empty, _ => List.forall_mem_nil _
  | .signal message rest, depth => fun fragment hfragment =>
    List.subset_cons_of_subset _ (rest.fragment_events_subset depth fragment hfragment)
  | .activation name starts rest, depth => fun fragment hfragment =>
    List.subset_cons_of_subset _ (rest.fragment_events_subset depth fragment hfragment)
  | .fragment kind operands rest, depth => by
    intro fragment hfragment
    rw [Body.fragments, List.cons_append, List.mem_cons, List.mem_append] at hfragment
    rw [Body.events]
    obtain rfl | hinside | hlater := hfragment
    · exact List.subset_append_left _ _
    · exact List.subset_append_of_subset_left _ (List.subset_cons_of_subset _
        (operands.fragment_events_subset true _ fragment hinside))
    · exact List.subset_append_of_subset_right _ (List.subset_cons_of_subset _
        (rest.fragment_events_subset depth fragment hlater))

theorem Operands.fragment_events_subset : ∀ (operands : Operands) (isFirst : Bool) (depth : Nat),
    ∀ fragment ∈ operands.fragments depth, fragment.events ⊆ operands.events isFirst
  | .none, _, _ => List.forall_mem_nil _
  | .cons guard body rest, isFirst, depth => by
    intro fragment hfragment
    rw [Operands.fragments, List.mem_append] at hfragment
    rw [Operands.events]
    obtain hbody | hrest := hfragment
    · exact List.subset_append_of_subset_left _ (List.subset_append_of_subset_right _
        (body.fragment_events_subset depth fragment hbody))
    · exact List.subset_append_of_subset_right _
        (rest.fragment_events_subset false depth fragment hrest)

end

theorem Operands.next_mem_events (operands : Operands) :
    ∀ guard ∈ operands.guards, .next guard ∈ operands.events false := by
  fun_induction Operands.guards operands with
  | case1 => exact List.forall_mem_nil _
  | case2 first body rest ih =>
    rw [Operands.events]
    refine List.forall_mem_cons.2 ⟨?_, fun guard hguard => List.mem_append_right _ (ih guard hguard)⟩
    exact List.mem_append_left _ (List.mem_append_left _ List.mem_cons_self)

/-- The guards of all operands of a fragment but the first one are told inside of it. -/
theorem Fragment.next_mem_events (fragment : Fragment) :
    ∀ guard ∈ fragment.operands.guards.drop 1, .next guard ∈ fragment.events := by
  intro guard hguard
  rw [events]
  cases hoperands : fragment.operands with
  | none =>
    rw [hoperands] at hguard
    cases hguard
  | cons first body rest =>
    rw [hoperands] at hguard
    exact List.mem_cons_of_mem _ (List.mem_append_right _ (rest.next_mem_events guard hguard))

namespace Builder

variable {builder : Builder}

theorem after_title (builder : Builder) (statement : Statement) :
    (builder.after statement).title.toList ⊆ builder.title.toList ++ statement.texts := by
  have hsame {after : Builder} (htitle : after.title = builder.title) :
      after.title.toList ⊆ builder.title.toList ++ statement.texts := by
    rw [htitle]
    exact List.subset_append_left _ _
  have hensure (builder : Builder) (name : String) : (builder.ensure name).title = builder.title := by
    obtain ⟨participants, hensure⟩ := ensure_eq builder name
    rw [hensure]
  cases statement with
  | setTitle keyword title => exact List.subset_append_right _ _
  | declare name label =>
    obtain ⟨participants, hdeclare⟩ := declare_eq builder name.value label
    exact hsame (by rw [after, hdeclare])
  | mention name => exact hsame (hensure builder name.value)
  | signal source arrow target label =>
    exact hsame ((hensure _ target.value).trans (hensure builder source.value))
  | activation keyword name =>
    refine hsame ?_
    simp only [after, activate, deactivate]
    split
    · exact hensure builder name.value
    · split <;> rfl
  | nextOperand keyword label =>
    refine hsame ?_
    simp only [after, nextOperand]
    split <;> rfl
  | closeFragment keyword =>
    refine hsame ?_
    simp only [after, closeFragment]
    split <;> rfl
  | openFragment | unknown => exact hsame rfl

theorem foldl_after_title (statements : List Statement) :
    (statements.foldl after (ofDiagram {})).title.toList ⊆ statements.flatMap Statement.texts := by
  induction statements using List.reverseRecOn with
  | nil => exact List.nil_subset _
  | append_singleton statements statement ih =>
    rw [List.foldl_concat, List.flatMap_append, List.flatMap_singleton]
    exact List.Subset.trans (after_title _ statement)
      (List.append_subset.2 ⟨List.subset_append_of_subset_left _ ih, List.subset_append_right _ _⟩)

theorem foldl_after_event_texts (statements : List Statement) :
    ∀ event ∈ (statements.foldl after (ofDiagram {})).content.events,
      event.texts ⊆ "" :: statements.flatMap Statement.texts := by
  intro event hevent
  rw [foldl_after_content_events, List.mem_append] at hevent
  obtain hevent | hclosing := hevent
  · obtain ⟨statement, hstatement, htold⟩ := Statement.told?_of_mem_events hevent
    exact List.Subset.trans (Statement.texts_of_told? htold)
      (List.cons_subset_cons _ fun text htext => List.mem_flatMap.2 ⟨statement, hstatement, htext⟩)
  · rw [List.eq_of_mem_replicate hclosing]
    exact List.nil_subset _

theorem foldl_after_label_mem {statements : List Statement}
    (hlabelled : ∀ statement ∈ statements, statement.Labelled) :
    ∀ participant ∈ (statements.foldl after (ofDiagram {})).participants,
      participant.label ∈ statements.flatMap Statement.texts := by
  intro participant hparticipant
  rw [(foldl_after_displays hlabelled).label participant hparticipant, Statement.displayed]
  cases hlast : (statements.filterMap (Statement.alias? participant.name)).getLast? with
  | some label =>
    obtain ⟨statement, hstatement, halias⟩ := List.mem_filterMap.1 (List.mem_of_getLast? hlast)
    exact List.mem_flatMap.2 ⟨statement, hstatement, Statement.alias?_mem_texts halias⟩
  | none =>
    have hname : participant.name ∈ (statements.foldl after (ofDiagram {})).names :=
      List.mem_map_of_mem hparticipant
    rw [foldl_after_names, mem_foldl_register] at hname
    obtain ⟨statement, hstatement, hmention⟩ :=
      List.mem_flatMap.1 (hname.resolve_left List.not_mem_nil)
    exact List.mem_flatMap.2 ⟨statement, hstatement, statement.mentions_subset hmention⟩

end Builder

/-- A text of characters of a source, with blanks and brackets, which stand around guards. -/
def Sourced (source text : String) : Prop :=
  text.toList ⊆ source.toList ++ [' ', '[', ']']

theorem Sourced.header {source kind label : String} (hkind : Sourced source kind)
    (hlabel : Sourced source label) : Sourced source (Label.header kind label) := by
  unfold Label.header
  split
  · exact hkind
  · simp only [Sourced, String.toList_append, List.append_subset]
    exact ⟨⟨⟨hkind, by simp⟩, hlabel⟩, by simp⟩

theorem Sourced.divider {source guard : String} (hguard : Sourced source guard) :
    Sourced source (Label.divider guard) := by
  unfold Label.divider
  split
  · exact List.nil_subset _
  · simp only [Sourced, String.toList_append, List.append_subset]
    exact ⟨⟨by simp, hguard⟩, by simp⟩

theorem Diagram.sourced_of_mem_shown {source : String} {diagram : Diagram}
    (htitle : ∀ title ∈ diagram.title, Sourced source title)
    (hevents : ∀ event ∈ diagram.content.body.events, ∀ text ∈ event.texts, Sourced source text)
    (hlabels : ∀ participant ∈ diagram.participants, Sourced source participant.label) :
    ∀ label ∈ diagram.shown, Sourced source label := by
  simp only [shown, List.forall_mem_append]
  refine ⟨fun title hmem => ?_, ?_, fun label hmem => ?_, List.forall_mem_map.2 hlabels⟩
  · exact htitle title (Option.mem_filter_iff.1 (Option.mem_toList.1 hmem)).1
  · rw [List.forall_mem_flatMap]
    intro fragment hfragment
    have hinside := diagram.content.body.fragment_events_subset 0 fragment hfragment
    have hopening := hevents _ (hinside List.mem_cons_self)
    refine List.forall_mem_cons.2 ⟨?_, fun label hmem => ?_⟩
    · exact (hopening _ List.mem_cons_self).header (hopening _ (List.mem_cons_of_mem _ List.mem_cons_self))
    · obtain ⟨guard, hguard, rfl⟩ := List.mem_map.1 (List.mem_of_mem_filter hmem)
      have hnext := hevents _ (hinside (fragment.next_mem_events guard hguard))
      exact (hnext guard List.mem_cons_self).divider
  · obtain ⟨message, hmessage, rfl⟩ := List.mem_map.1 (List.mem_of_mem_filter hmem)
    rw [signals, Body.signals_eq] at hmessage
    obtain ⟨event, hevent, hsignal⟩ := List.mem_filterMap.1 hmessage
    cases event <;> cases hsignal
    exact hevents _ hevent _ List.mem_cons_self

/-- What a diagram of a text shows consists of characters of the text, and of the brackets around guards
    with the blank in front of them. -/
theorem Diagram.sourced_of_ofText {text : String} {diagram : Diagram} {problems : List Diagnostic}
    (htext : ofText text = .ok (diagram, problems)) : ∀ label ∈ diagram.shown, Sourced text label := by
  have hlines : ∀ statement ∈ TokenLine.statements (TokenLine.ofText text),
      statement.Labelled ∧ ∀ word ∈ statement.texts, Sourced text word := by
    intro statement hstatement
    obtain ⟨line, hline, hstatement⟩ := List.mem_filterMap.1 hstatement
    refine ⟨(sound_of_statement? hline hstatement).2.1, fun word hword => ?_⟩
    have hform := TokenLine.form_of_statement? hstatement
    obtain ⟨token, htoken, rfl⟩ := List.mem_map.1 (hform.texts hword)
    obtain ⟨hmem, hkind, -⟩ := (TokenLine.mem_of_mem_ofTokens hline).1 token htoken
    exact List.subset_append_of_subset_left _ (Token.value_subset hmem hkind)
  have hwords : ∀ word ∈ (TokenLine.statements (TokenLine.ofText text)).flatMap Statement.texts,
      Sourced text word :=
    List.forall_mem_flatMap.2 fun statement hstatement => (hlines statement hstatement).2
  rw [ofText_eq_ok] at htext
  cases htext
  refine sourced_of_mem_shown (fun title htitle => ?_) (fun event hevent word hword => ?_)
    fun participant hparticipant => ?_
  · exact hwords title (Builder.foldl_after_title _ (Option.mem_toList.2 htitle))
  · obtain rfl | hword := List.mem_cons.1 (Builder.foldl_after_event_texts _ event hevent hword)
    · exact List.nil_subset _
    · exact hwords word hword
  · exact hwords _ (Builder.foldl_after_label_mem (fun statement h => (hlines statement h).1)
      participant hparticipant)

end SequenceChart
