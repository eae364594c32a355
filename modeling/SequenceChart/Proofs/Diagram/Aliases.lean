import Mathlib.Data.List.Induction
import SequenceChart.Proofs.Diagram.Mentions
import SequenceChart.Proofs.Diagram.Opened

namespace SequenceChart

namespace Statement

/-- The alias that a statement gives to the participant of a name. -/
def alias? (name : String) : Statement → Option String
  | .declare declared label => if declared.value = name then label.map Token.value else none
  | _ => none

/-- What statements have the participant of a name displayed as: the last alias that they give to it,
    or the name itself if they give none. -/
def displayed (statements : List Statement) (name : String) : String :=
  ((statements.filterMap (alias? name)).getLast?).getD name

theorem displayed_concat (statements : List Statement) (statement : Statement) (name : String) :
    displayed (statements ++ [statement]) name =
      (statement.alias? name).getD (displayed statements name) := by
  cases halias : statement.alias? name <;> simp [displayed, halias]

/-- An alias is given to a name that is mentioned with it. -/
theorem mem_mentions_of_alias? {statement : Statement} {name text : String}
    (halias : statement.alias? name = some text) : name ∈ statement.mentions := by
  cases statement with
  | declare declared label =>
    by_cases hname : declared.value = name
    · simp [mentions, hname]
    · simp [alias?, hname] at halias
  | _ => cases halias

theorem displayed_of_not_mem {statements : List Statement} {name : String}
    (hname : name ∉ statements.flatMap mentions) : displayed statements name = name := by
  have hnone : statements.filterMap (alias? name) = [] := by
    rw [List.filterMap_eq_nil_iff]
    intro statement hstatement
    cases halias : statement.alias? name with
    | none => rfl
    | some text =>
      exact absurd (List.mem_flatMap.2 ⟨statement, hstatement, mem_mentions_of_alias? halias⟩) hname
  rw [displayed, hnone]
  rfl

end Statement

/-- Names that are registered as they come stand in the order in which they came first. -/
theorem pairwise_foldl_register (mentions : List String) :
    (mentions.foldl register []).Pairwise fun a b => mentions.idxOf a < mentions.idxOf b := by
  induction mentions using List.reverseRecOn with
  | nil => exact .nil
  | append_singleton mentions last ih =>
    have hmentioned {name : String} (hname : name ∈ mentions.foldl register []) : name ∈ mentions :=
      (mem_foldl_register.1 hname).resolve_left List.not_mem_nil
    have hbefore : (mentions.foldl register []).Pairwise
        fun a b => (mentions ++ [last]).idxOf a < (mentions ++ [last]).idxOf b := by
      refine ih.imp_of_mem fun ha hb hab => ?_
      rwa [List.idxOf_append_of_mem (hmentioned ha), List.idxOf_append_of_mem (hmentioned hb)]
    rw [List.foldl_append, List.foldl_cons, List.foldl_nil]
    unfold register
    split
    · exact hbefore
    · next hnew =>
      rw [List.pairwise_append]
      refine ⟨hbefore, List.pairwise_singleton _ _, fun name hname other hother => ?_⟩
      obtain rfl := List.mem_singleton.1 hother
      have hlast : other ∉ mentions := fun hmem => hnew (mem_foldl_register.2 (.inr hmem))
      rw [List.idxOf_append_of_mem (hmentioned hname), List.idxOf_append_of_notMem hlast]
      exact Nat.lt_add_right _ (List.idxOf_lt_length_of_mem (hmentioned hname))

namespace Builder

variable {builder : Builder} {front : List Statement}

/-- The builder has a participant for every name that the statements so far mention, and displays
    each participant as they have it. -/
structure Displays (builder : Builder) (front : List Statement) : Prop where
  distinct : builder.names.Nodup
  mentioned : ∀ name ∈ front.flatMap Statement.mentions, name ∈ builder.names
  label : ∀ participant ∈ builder.participants,
    participant.label = Statement.displayed front participant.name

/-- Of distinct names, one participant is relabelled, and the others stay. -/
theorem mem_relabelFirst {name label : String} {participants : List Participant}
    (hdistinct : (participants.map Participant.name).Nodup) {participant : Participant}
    (hmem : participant ∈ Building.relabelFirst name label participants) :
    participant.name = name ∧ participant.label = label ∨
      participant.name ≠ name ∧ participant ∈ participants := by
  fun_induction Building.relabelFirst name label participants with
  | case1 => cases hmem
  | case2 rest first hname =>
    rw [List.map_cons, List.nodup_cons] at hdistinct
    obtain rfl | hmem := List.mem_cons.1 hmem
    · exact .inl ⟨hname, rfl⟩
    · refine .inr ⟨?_, List.mem_cons_of_mem _ hmem⟩
      intro hother
      exact hdistinct.1 (hname ▸ hother ▸ List.mem_map_of_mem hmem)
  | case3 first rest hname ih =>
    obtain rfl | hmem := List.mem_cons.1 hmem
    · exact .inr ⟨hname, List.mem_cons_self⟩
    · obtain hlabelled | ⟨hother, hmem⟩ := ih (List.nodup_cons.1 hdistinct).2 hmem
      · exact .inl hlabelled
      · exact .inr ⟨hother, List.mem_cons_of_mem _ hmem⟩

theorem ensure_label (hdisplays : builder.Displays front) (name : String) :
    ∀ participant ∈ (builder.ensure name).participants,
      participant.label = Statement.displayed front participant.name := by
  unfold ensure
  cases hfind : builder.find? name with
  | some participant => exact hdisplays.label
  | none =>
    have hnew : name ∉ builder.names := by simp [← find?_isSome_iff, hfind]
    have hname : Statement.displayed front name = name :=
      Statement.displayed_of_not_mem (mt (hdisplays.mentioned name) hnew)
    refine List.forall_mem_append.2 ⟨hdisplays.label, List.forall_mem_singleton.2 ?_⟩
    exact hname.symm

/-- Making sure of a participant changes no label that the statements so far have given. -/
theorem Displays.ensure (hdisplays : builder.Displays front) (name : String) :
    (builder.ensure name).Displays front := by
  refine ⟨?_, fun other hother => ?_, ensure_label hdisplays name⟩
  · rw [ensure_names]
    exact nodup_register hdisplays.distinct name
  · rw [ensure_names, mem_register]
    exact .inl (hdisplays.mentioned other hother)

/-- An alias is what the participant is displayed as from then on, and no other one changes. -/
theorem declare_label (hdisplays : builder.Displays front) {name : Token} {label : Option Token}
    (hlabelled : (Statement.declare name label).Labelled) :
    ∀ participant ∈ (builder.declare name.value label).participants,
      participant.label =
        Statement.displayed (front ++ [.declare name label]) participant.name := by
  have hother {participant : Participant} (hmem : participant ∈ builder.participants)
      (hname : participant.name ≠ name.value) :
      participant.label = Statement.displayed (front ++ [.declare name label]) participant.name := by
    rw [Statement.displayed_concat, Statement.alias?, if_neg (Ne.symm hname)]
    exact hdisplays.label participant hmem
  unfold declare
  cases hfind : builder.find? name.value with
  | none =>
    have hnew : name.value ∉ builder.names := by simp [← find?_isSome_iff, hfind]
    have hname : Statement.displayed front name.value = name.value :=
      Statement.displayed_of_not_mem (mt (hdisplays.mentioned _) hnew)
    refine List.forall_mem_append.2 ⟨fun participant hmem => hother hmem ?_,
      List.forall_mem_singleton.2 ?_⟩
    · intro heq
      exact hnew (heq ▸ List.mem_map_of_mem hmem)
    · rw [Statement.displayed_concat, Statement.alias?, if_pos rfl, hname]
      cases label with
      | none => rfl
      | some text => simp [Statement.textOf, Option.filter, hlabelled text rfl]
  | some found =>
    cases label with
    | none =>
      intro participant hmem
      rw [Statement.displayed_concat, Statement.alias?, Option.map_none, ite_self]
      exact hdisplays.label participant hmem
    | some text =>
      intro participant hmem
      obtain ⟨hname, hlabel⟩ | ⟨hname, hmem⟩ := mem_relabelFirst hdisplays.distinct hmem
      · rw [Statement.displayed_concat, Statement.alias?, if_pos hname.symm, hlabel]
        rfl
      · exact hother hmem hname

theorem after_label (hdisplays : builder.Displays front) {statement : Statement}
    (hlabelled : statement.Labelled) :
    ∀ participant ∈ (builder.after statement).participants,
      participant.label = Statement.displayed (front ++ [statement]) participant.name := by
  have hplain (hnone : ∀ name, statement.alias? name = none) {participants : List Participant}
      (hlabel : ∀ participant ∈ participants,
        participant.label = Statement.displayed front participant.name) :
      ∀ participant ∈ participants,
        participant.label = Statement.displayed (front ++ [statement]) participant.name := by
    intro participant hmem
    rw [Statement.displayed_concat, hnone, hlabel participant hmem, Option.getD_none]
  cases statement with
  | declare name label => exact declare_label hdisplays hlabelled
  | mention name => exact hplain (fun _ => rfl) (ensure_label hdisplays name.value)
  | signal source arrow target label =>
    exact hplain (fun _ => rfl) (ensure_label (hdisplays.ensure source.value) target.value)
  | activation keyword name =>
    refine hplain (fun _ => rfl) ?_
    simp only [after, deactivate]
    split
    · exact ensure_label hdisplays name.value
    · split <;> exact hdisplays.label
  | nextOperand keyword label =>
    refine hplain (fun _ => rfl) ?_
    simp only [after, nextOperand]
    split <;> exact hdisplays.label
  | closeFragment keyword =>
    refine hplain (fun _ => rfl) ?_
    simp only [after, closeFragment]
    split <;> exact hdisplays.label
  | _ => exact hplain (fun _ => rfl) hdisplays.label

theorem after_displays (hdisplays : builder.Displays front) {statement : Statement}
    (hlabelled : statement.Labelled) : (builder.after statement).Displays (front ++ [statement]) := by
  refine ⟨?_, fun name hname => ?_, after_label hdisplays hlabelled⟩
  · rw [after_names]
    exact nodup_foldl_register hdisplays.distinct _
  · rw [List.flatMap_append, List.flatMap_singleton, List.mem_append] at hname
    rw [after_names, mem_foldl_register]
    exact hname.imp_left (hdisplays.mentioned name)

theorem foldl_after_displays {statements : List Statement}
    (hlabelled : ∀ statement ∈ statements, statement.Labelled) :
    (statements.foldl after (ofDiagram {})).Displays statements := by
  induction statements using List.reverseRecOn with
  | nil => exact ⟨.nil, List.forall_mem_nil _, List.forall_mem_nil _⟩
  | append_singleton statements statement ih =>
    obtain ⟨hfront, hlast⟩ := List.forall_mem_append.1 hlabelled
    rw [List.foldl_concat]
    exact after_displays (ih hfront) (List.forall_mem_singleton.1 hlast)

end Builder

/-- A new diagram has one participant for each name that the statements mention, in the order in which
    they do so first, and displays it by the last alias that they give to it, or else by its name. -/
theorem Diagram.build_participants {statements : List Statement}
    (hcomplete : ∀ statement ∈ statements, statement.Complete)
    (hlabelled : ∀ statement ∈ statements, statement.Labelled) :
    ∃ diagram problems, Diagram.build statements {} = .ok (diagram, problems) ∧
      diagram.names.Nodup ∧
      (∀ name, name ∈ diagram.names ↔ name ∈ statements.flatMap Statement.mentions) ∧
      diagram.names.Pairwise (fun a b => (statements.flatMap Statement.mentions).idxOf a <
        (statements.flatMap Statement.mentions).idxOf b) ∧
      ∀ participant ∈ diagram.participants,
        participant.label = Statement.displayed statements participant.name := by
  have hnames : (statements.foldl Builder.after (Builder.ofDiagram {})).diagram.names =
      (statements.flatMap Statement.mentions).foldl register [] :=
    Builder.foldl_after_names (Builder.ofDiagram {}) statements
  refine ⟨_, _, build_eq_ok {} hcomplete, ?_, fun name => ?_, ?_,
    (Builder.foldl_after_displays hlabelled).label⟩
  · rw [hnames]
    exact nodup_foldl_register .nil _
  · rw [hnames, mem_foldl_register]
    exact or_iff_right List.not_mem_nil
  · rw [hnames]
    exact pairwise_foldl_register _

/-- A target is declared later, twice with an alias and once without, and what ends no activation
    mentions nobody. -/
theorem Diagram.build_participants_aliases :
    let statements : List Statement := [
      .activation ⟨.keyword .deactivate, "deactivate", 1, 1, 0, 10⟩ ⟨.name, "C", 1, 12, 11, 1⟩,
      .signal ⟨.name, "A", 2, 1, 13, 1⟩ ⟨.arrow, "->", 2, 3, 15, 2⟩ ⟨.name, "B", 2, 6, 18, 1⟩ none,
      .declare ⟨.name, "B", 3, 13, 32, 1⟩ (some ⟨.text, "Bob", 3, 18, 37, 3⟩),
      .declare ⟨.name, "B", 4, 13, 53, 1⟩ (some ⟨.text, "Bert", 4, 18, 58, 4⟩),
      .declare ⟨.name, "B", 5, 13, 75, 1⟩ none]
    (∀ statement ∈ statements, statement.Complete) ∧
      (∀ statement ∈ statements, statement.Labelled) ∧
      ∃ diagram problems, Diagram.build statements {} = .ok (diagram, problems) ∧
        diagram.names.Nodup ∧
        (∀ name, name ∈ diagram.names ↔ name ∈ statements.flatMap Statement.mentions) ∧
        diagram.names.Pairwise (fun a b => (statements.flatMap Statement.mentions).idxOf a <
          (statements.flatMap Statement.mentions).idxOf b) ∧
        ∀ participant ∈ diagram.participants,
          participant.label = Statement.displayed statements participant.name := by
  intro statements
  have hcomplete : ∀ statement ∈ statements, statement.Complete := by
    simp [statements, Statement.Complete]
  have hlabelled : ∀ statement ∈ statements, statement.Labelled := by
    simp [statements, Statement.Labelled]
  exact ⟨hcomplete, hlabelled, build_participants hcomplete hlabelled⟩

end SequenceChart
