import SequenceChart.Proofs.Diagram.Run

namespace SequenceChart

namespace Statement

/-- The names that a statement gives a participant to, if they have none, in order. -/
def mentions : Statement → List String
  | .declare name _ => [name.value]
  | .mention name => [name.value]
  | .signal source _ target _ => [source.value, target.value]
  | .activation keyword name => if keyword.value = Keyword.activate.word then [name.value] else []
  | _ => []

/-- A label that is given to a participant has characters. -/
def Labelled : Statement → Prop
  | .declare _ label => ∀ text ∈ label, text.value ≠ ""
  | _ => True

end Statement

/-- The names with one more at the end, unless it is among them. -/
def register (names : List String) (name : String) : List String :=
  if name ∈ names then names else names ++ [name]

theorem mem_register {names : List String} {name other : String} :
    other ∈ register names name ↔ other ∈ names ∨ other = name := by
  unfold register
  split
  · next hmem =>
    constructor
    · exact .inl
    · rintro (hother | rfl)
      · exact hother
      · exact hmem
  · simp

theorem nodup_register {names : List String} (hnodup : names.Nodup) (name : String) :
    (register names name).Nodup := by
  unfold register
  split
  · exact hnodup
  · next hnone =>
    rw [List.nodup_append]
    refine ⟨hnodup, by simp, ?_⟩
    rintro other hother last hlast rfl
    exact hnone (List.mem_singleton.1 hlast ▸ hother)

theorem mem_foldl_register {names mentions : List String} {name : String} :
    name ∈ mentions.foldl register names ↔ name ∈ names ∨ name ∈ mentions := by
  induction mentions generalizing names with
  | nil => simp
  | cons first rest ih => rw [List.foldl_cons, ih, mem_register, List.mem_cons, or_assoc]

theorem nodup_foldl_register {names : List String} (hnodup : names.Nodup) (mentions : List String) :
    (mentions.foldl register names).Nodup := by
  induction mentions generalizing names with
  | nil => exact hnodup
  | cons first rest ih => exact ih (nodup_register hnodup first)

namespace Builder

variable {builder : Builder}

/-- The names of the participants so far. -/
def names (builder : Builder) : List String :=
  builder.participants.map Participant.name

/-- Every participant has a name and a label to be displayed by. -/
def Named (builder : Builder) : Prop :=
  ∀ participant ∈ builder.participants, participant.name ≠ "" ∧ participant.label ≠ ""

theorem find?_isSome_iff (builder : Builder) (name : String) :
    (builder.find? name).isSome ↔ name ∈ builder.names := by
  simp [find?, names, List.find?_isSome, List.mem_map]

theorem relabelFirst_names (name label : String) (participants : List Participant) :
    (Building.relabelFirst name label participants).map Participant.name =
      participants.map Participant.name := by
  fun_induction Building.relabelFirst name label participants with
  | case1 => rfl
  | case2 rest participant hname => simp
  | case3 participant rest hname ih => simp [ih]

theorem create_names (builder : Builder) (name : String) (label : Option String) :
    (builder.create name label).names = builder.names ++ [name] := by
  simp [create, names]

theorem ensure_names (builder : Builder) (name : String) :
    (builder.ensure name).names = register builder.names name := by
  have hfound := find?_isSome_iff builder name
  unfold ensure register
  cases hfind : builder.find? name with
  | some participant =>
    rw [if_pos (hfound.1 (by simp [hfind]))]
  | none =>
    rw [if_neg (by simp [← hfound, hfind]), create_names]

/-- Declaring a participant gives it the place that a mention would. -/
theorem declare_names (builder : Builder) (name : String) (label : Option Token) :
    (builder.declare name label).names = register builder.names name := by
  rw [← ensure_names]
  unfold declare ensure
  cases builder.find? name with
  | none => simp [create_names]
  | some participant =>
    cases label with
    | none => rfl
    | some label => exact relabelFirst_names name label.value builder.participants

theorem after_names (builder : Builder) (statement : Statement) :
    (builder.after statement).names = statement.mentions.foldl register builder.names := by
  cases statement with
  | declare name label => exact declare_names builder name.value label
  | mention name => exact ensure_names builder name.value
  | signal source arrow target label =>
    calc ((builder.ensure source.value).ensure target.value).names
      _ = register (builder.ensure source.value).names target.value := ensure_names _ _
      _ = register (register builder.names source.value) target.value := by rw [ensure_names]
  | activation keyword name =>
    simp only [after, Statement.mentions]
    split
    · exact ensure_names builder name.value
    · unfold deactivate
      split <;> rfl
  | nextOperand keyword label =>
    simp only [after, nextOperand]
    split <;> rfl
  | closeFragment keyword =>
    simp only [after, closeFragment]
    split <;> rfl
  | _ => rfl

theorem foldl_after_names (builder : Builder) (statements : List Statement) :
    (statements.foldl after builder).names =
      (statements.flatMap Statement.mentions).foldl register builder.names := by
  induction statements generalizing builder with
  | nil => rfl
  | cons statement rest ih =>
    rw [List.foldl_cons, ih, after_names, List.flatMap_cons, List.foldl_append]

theorem create_named (hnamed : builder.Named) {name : String} (hname : name ≠ "")
    (label : Option String) : (builder.create name label).Named := by
  intro participant hparticipant
  obtain hparticipant | hparticipant := List.mem_append.1 hparticipant
  · exact hnamed participant hparticipant
  · rw [List.mem_singleton.1 hparticipant]
    refine ⟨hname, ?_⟩
    cases hlabel : label.filter (· ≠ "") with
    | none => exact hname
    | some text => simpa using (Option.filter_eq_some_iff.1 hlabel).2

theorem ensure_named (hnamed : builder.Named) {name : String} (hname : name ≠ "") :
    (builder.ensure name).Named := by
  unfold ensure
  split
  · exact hnamed
  · exact create_named hnamed hname none

theorem relabelFirst_named {participants : List Participant}
    (hnamed : ∀ participant ∈ participants, participant.name ≠ "" ∧ participant.label ≠ "")
    (name : String) {label : String} (hlabel : label ≠ "") :
    ∀ participant ∈ Building.relabelFirst name label participants,
      participant.name ≠ "" ∧ participant.label ≠ "" := by
  fun_induction Building.relabelFirst name label participants with
  | case1 => exact hnamed
  | case2 rest participant hname =>
    obtain ⟨hfirst, hrest⟩ := List.forall_mem_cons.1 hnamed
    exact List.forall_mem_cons.2 ⟨⟨hfirst.1, hlabel⟩, hrest⟩
  | case3 participant rest hname ih =>
    obtain ⟨hfirst, hrest⟩ := List.forall_mem_cons.1 hnamed
    exact List.forall_mem_cons.2 ⟨hfirst, ih hrest⟩

theorem after_named (hnamed : builder.Named) {statement : Statement} (hcomplete : statement.Complete)
    (hlabelled : statement.Labelled) : (builder.after statement).Named := by
  cases statement with
  | declare name label =>
    simp only [after, declare]
    split
    · exact create_named hnamed hcomplete _
    · exact hnamed
    · exact relabelFirst_named hnamed name.value (hlabelled _ rfl)
  | mention name => exact ensure_named hnamed hcomplete
  | signal source arrow target label => exact ensure_named (ensure_named hnamed hcomplete.1) hcomplete.2
  | activation keyword name =>
    simp only [after]
    split
    · exact ensure_named hnamed hcomplete
    · unfold deactivate
      split <;> exact hnamed
  | nextOperand keyword label =>
    simp only [after, nextOperand]
    split <;> exact hnamed
  | closeFragment keyword =>
    simp only [after, closeFragment]
    split <;> exact hnamed
  | _ => exact hnamed

theorem foldl_after_named (hnamed : builder.Named) {statements : List Statement}
    (hcomplete : ∀ statement ∈ statements, statement.Complete)
    (hlabelled : ∀ statement ∈ statements, statement.Labelled) :
    (statements.foldl after builder).Named :=
  List.foldlRecOn statements after hnamed fun _ hbuilder statement hmem =>
    after_named hbuilder (hcomplete statement hmem) (hlabelled statement hmem)

end Builder

end SequenceChart
