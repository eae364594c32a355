import SequenceChart.Proofs.Outline

namespace SequenceChart

/-- A participant with the outline of its label. -/
def Participant.outlined (participant : Participant) : Participant :=
  { participant with label := Label.outline participant.label }

/-- A signal with the outline of its label. -/
def Signal.outlined (signal : Signal) : Signal :=
  { signal with label := Label.outline signal.label }

mutual

/-- A body with the outlines of its labels and guards. -/
def Body.outlined : Body → Body
  | .empty => .empty
  | .signal message rest => .signal message.outlined rest.outlined
  | .activation name starts rest => .activation name starts rest.outlined
  | .fragment kind operands rest => .fragment kind operands.outlined rest.outlined

/-- Operands with the outlines of their labels and guards. -/
def Operands.outlined : Operands → Operands
  | .none => .none
  | .cons guard body rest => .cons (Label.outline guard) body.outlined rest.outlined

end

/-- A diagram with the outlines of its title, labels and guards. -/
def Diagram.outlined (diagram : Diagram) : Diagram where
  title := diagram.title.map Label.outline
  participants := diagram.participants.map Participant.outlined
  content := ⟨Label.outline diagram.content.guard, diagram.content.body.outlined⟩

/-- Participants that differ in their labels at most, which are alike. -/
structure Participant.Alike (first second : Participant) : Prop where
  name : first.name = second.name
  label : Label.Alike first.label second.label

/-- Signals that differ in their labels at most, which are alike. -/
structure Signal.Alike (first second : Signal) : Prop where
  source : first.source = second.source
  target : first.target = second.target
  style : first.style = second.style
  hasHead : first.hasHead = second.hasHead
  label : Label.Alike first.label second.label

mutual

/-- Bodies that differ in labels and guards at most, which are alike. -/
inductive Body.Alike : Body → Body → Prop
  | empty : Body.Alike .empty .empty
  | signal {message other : Signal} {rest after : Body} (hmessage : message.Alike other)
      (hrest : Body.Alike rest after) : Body.Alike (.signal message rest) (.signal other after)
  | activation (name : String) (starts : Bool) {rest after : Body} (hrest : Body.Alike rest after) :
      Body.Alike (.activation name starts rest) (.activation name starts after)
  | fragment (kind : String) {operands others : Operands} {rest after : Body}
      (hoperands : Operands.Alike operands others) (hrest : Body.Alike rest after) :
      Body.Alike (.fragment kind operands rest) (.fragment kind others after)

/-- Operands that differ in labels and guards at most, which are alike. -/
inductive Operands.Alike : Operands → Operands → Prop
  | none : Operands.Alike .none .none
  | cons {guard other : String} {body inner : Body} {rest after : Operands}
      (hguard : Label.Alike guard other) (hbody : Body.Alike body inner)
      (hrest : Operands.Alike rest after) :
      Operands.Alike (.cons guard body rest) (.cons other inner after)

end

/-- Diagrams that differ in title, labels and guards at most, which are alike. -/
structure Diagram.Alike (first second : Diagram) : Prop where
  title : Option.Rel Label.Alike first.title second.title
  participants : List.Forall₂ Participant.Alike first.participants second.participants
  guard : Label.Alike first.content.guard second.content.guard
  body : first.content.body.Alike second.content.body

theorem Participant.Alike.outlined_eq {first second : Participant} (halike : first.Alike second) :
    first.outlined = second.outlined := by
  rw [outlined, outlined, halike.name, halike.label.outline_eq]

theorem Signal.Alike.outlined_eq {first second : Signal} (halike : first.Alike second) :
    first.outlined = second.outlined := by
  rw [outlined, outlined, halike.source, halike.target, halike.style, halike.hasHead,
    halike.label.outline_eq]

mutual

theorem Body.Alike.outlined_eq {first second : Body} :
    first.Alike second → first.outlined = second.outlined
  | .empty => rfl
  | .signal hmessage hrest => by
    rw [Body.outlined, Body.outlined, hmessage.outlined_eq, hrest.outlined_eq]
  | .activation name starts hrest => by
    rw [Body.outlined, Body.outlined, hrest.outlined_eq]
  | .fragment kind hoperands hrest => by
    rw [Body.outlined, Body.outlined, hoperands.outlined_eq, hrest.outlined_eq]

theorem Operands.Alike.outlined_eq {first second : Operands} :
    first.Alike second → first.outlined = second.outlined
  | .none => rfl
  | .cons hguard hbody hrest => by
    rw [Operands.outlined, Operands.outlined, hguard.outline_eq, hbody.outlined_eq,
      hrest.outlined_eq]

end

theorem Participant.Alike.refl (participant : Participant) : participant.Alike participant :=
  ⟨rfl, .refl _⟩

theorem Signal.Alike.refl (signal : Signal) : signal.Alike signal :=
  ⟨rfl, rfl, rfl, rfl, .refl _⟩

mutual

theorem Body.Alike.refl : ∀ body : Body, body.Alike body
  | .empty => .empty
  | .signal message rest => .signal (.refl message) (Body.Alike.refl rest)
  | .activation name starts rest => .activation name starts (Body.Alike.refl rest)
  | .fragment kind operands rest =>
    .fragment kind (Operands.Alike.refl operands) (Body.Alike.refl rest)

theorem Operands.Alike.refl : ∀ operands : Operands, operands.Alike operands
  | .none => .none
  | .cons guard body rest => .cons (.refl guard) (Body.Alike.refl body) (Operands.Alike.refl rest)

end

theorem Diagram.Alike.refl (diagram : Diagram) : diagram.Alike diagram where
  title := by
    cases diagram.title with
    | none => exact .none
    | some text => exact .some (.refl text)
  participants := List.forall₂_same.2 fun participant _ => .refl participant
  guard := .refl _
  body := .refl _

/-- Alike diagrams have the same outline. -/
theorem Diagram.Alike.outlined_eq {first second : Diagram} (halike : first.Alike second) :
    first.outlined = second.outlined := by
  have htitles {own other : Option String} (h : Option.Rel Label.Alike own other) :
      own.map Label.outline = other.map Label.outline := by
    cases h with
    | some hlabel => exact congrArg some hlabel.outline_eq
    | none => rfl
  have hparticipants {own other : List Participant} (h : List.Forall₂ Participant.Alike own other) :
      own.map Participant.outlined = other.map Participant.outlined := by
    induction h with
    | nil => rfl
    | cons hlabel _ ih => rw [List.map_cons, List.map_cons, hlabel.outlined_eq, ih]
  rw [outlined, outlined, htitles halike.title, hparticipants halike.participants,
    halike.guard.outline_eq, halike.body.outlined_eq]

end SequenceChart
