import SequenceChart.Proofs.Drawing.Rendering
import SequenceChart.Proofs.Layout.Outlined

namespace SequenceChart

section Runs

variable {α σ τ ε : Type}

/-- Results of two calls that are the same, and states after them that are related. -/
def Related (R : σ → τ → Prop) {A : Type} (first : A × σ) (second : A × τ) : Prop :=
  first.1 = second.1 ∧ R first.2 second.2

variable {R : σ → τ → Prop} {A B : Type}

theorem Related.bind {first : ExceptT ε (StateM σ) A} {second : ExceptT ε (StateM τ) A}
    {next : A → ExceptT ε (StateM σ) B} {following : A → ExceptT ε (StateM τ) B} {start : σ} {other : τ}
    (hfirst : Related R (first.run start) (second.run other))
    (hnext : ∀ a {middle inside}, R middle inside →
      Related R ((next a).run middle) ((following a).run inside)) :
    Related R ((first >>= next).run start) ((second >>= following).run other) := by
  rw [Drawing.run_bind, Drawing.run_bind]
  generalize first.run start = done at hfirst
  generalize second.run other = mirrored at hfirst
  obtain ⟨result, middle⟩ := done
  obtain ⟨_, inside⟩ := mirrored
  obtain ⟨rfl, hstates⟩ := hfirst
  cases result with
  | error error => exact ⟨rfl, hstates⟩
  | ok a => exact hnext a hstates

variable {surface : Surface α σ ε} {mirror : Surface α τ ε}

theorem Related.within
    (hcalls : ∀ call {start other}, R start other →
      Related R ((surface call).run start) ((mirror call).run other))
    {body : ExceptT ε (StateM σ) Unit} {copy : ExceptT ε (StateM τ) Unit}
    (hbody : ∀ {start other}, R start other → Related R (body.run start) (copy.run other))
    (dx dy : α) {start : σ} {other : τ} (hstart : R start other) :
    Related R ((surface.within dx dy body).run start) ((mirror.within dx dy copy).run other) := by
  rw [Surface.within_run, Surface.within_run]
  have hpush := hcalls (.push dx dy) hstart
  generalize (surface (.push dx dy)).run start = pushed at hpush
  generalize (mirror (.push dx dy)).run other = mirrored at hpush
  obtain ⟨result, inside⟩ := pushed
  obtain ⟨_, inner⟩ := mirrored
  obtain ⟨rfl, hinside⟩ := hpush
  cases result with
  | error error => exact ⟨rfl, hinside⟩
  | ok _ =>
    obtain ⟨hresult, hended⟩ := hbody hinside
    dsimp only at hinside hresult hended ⊢
    have hpop := hcalls .pop hended
    generalize (surface .pop).run (body.run inside).2 = popped at hpop
    generalize (mirror .pop).run (copy.run inner).2 = mirrored at hpop
    obtain ⟨result, outside⟩ := popped
    obtain ⟨_, outer⟩ := mirrored
    obtain ⟨rfl, houtside⟩ := hpop
    cases result with
    | error error => exact ⟨rfl, houtside⟩
    | ok _ => exact ⟨hresult, houtside⟩

/-- Surfaces that answer every call in the same way, in states that stay related, perform every
    drawing in the same way. -/
theorem Drawing.run_related
    (hcalls : ∀ call {start other}, R start other →
      Related R ((surface call).run start) ((mirror call).run other))
    (drawing : Drawing α) {start : σ} {other : τ} (hstart : R start other) :
    Related R ((drawing.run surface).run start) ((drawing.run mirror).run other) := by
  induction drawing generalizing start other with
  | done => exact ⟨rfl, hstart⟩
  | call c rest ih => exact (hcalls c hstart).bind fun _ _ _ hstates => ih hstates
  | within dx dy body rest ihBody ihRest =>
    exact (Related.within hcalls ihBody dx dy hstart).bind fun _ _ _ hstates => ihRest hstates

end Runs

section Outlines

variable {α : Type}

/-- A call with the outline of its text. -/
def Call.outlined : Call α → Call α
  | .text label horizontal vertical corner size color =>
    .text (Label.outline label) horizontal vertical corner size color
  | .measure label => .measure (Label.outline label)
  | call => call

namespace Drawing

/-- A drawing with the outlines of its texts. -/
def outlined : Drawing α → Drawing α
  | done => done
  | call c rest => call c.outlined rest.outlined
  | within dx dy body rest => within dx dy body.outlined rest.outlined

theorem outlined_append (first second : Drawing α) :
    (first ++ second).outlined = first.outlined ++ second.outlined := by
  induction first with
  | done => rfl
  | call c rest ih => exact congrArg (call c.outlined) ih
  | within dx dy body rest _ ih => exact congrArg (within dx dy body.outlined) ih

theorem outlined_ofCalls (calls : List (Call α)) :
    (ofCalls calls).outlined = ofCalls (calls.map Call.outlined) := by
  induction calls with
  | nil => rfl
  | cons c rest ih => exact congrArg (call c.outlined) ih

/-- Drawings of alike items, one for every item, have the same outline. -/
theorem outlined_forAll {β : Type} {draw : β → Drawing α} {change : β → β}
    (hdraw : ∀ item, (draw (change item)).outlined = (draw item).outlined) (items : List β) :
    (forAll draw (items.map change)).outlined = (forAll draw items).outlined := by
  induction items with
  | nil => rfl
  | cons item rest ih =>
    change (draw (change item) ++ forAll draw (rest.map change)).outlined =
      (draw item ++ forAll draw rest).outlined
    rw [outlined_append, outlined_append, hdraw, ih]

end Drawing

end Outlines

namespace Drawing

variable {α : Type}

theorem ofTitle_outlined (palette : Palette α) (title : TitleBox α) :
    (ofTitle palette title.outlined).outlined = (ofTitle palette title).outlined := by
  simp [ofTitle, outlined_ofCalls, Call.outlined, TitleBox.outlined, Label.outline_outline]

variable [Sub α] [Div α] [∀ n, OfNat α n]

theorem ofDivider_outlined (palette : Palette α) (fragment : FragmentBox α) (divider : Divider α) :
    (ofDivider palette fragment.outlined divider.outlined).outlined =
      (ofDivider palette fragment divider).outlined := by
  simp only [ofDivider, outlined_ofCalls, FragmentBox.outlined, Divider.outlined,
    Label.divider_outline_eq_empty_iff]
  split
  · rfl
  · simp [Call.outlined, Label.outline_divider]

theorem ofParticipant_outlined (palette : Palette α) (participant : ParticipantBox α) :
    (ofParticipant palette participant.outlined).outlined =
      (ofParticipant palette participant).outlined := by
  simp [ofParticipant, outlined, outlined_ofCalls, Call.outlined, ParticipantBox.outlined,
    Label.outline_outline]

variable [Add α] [LT α] [DecidableLT α]

theorem ofSignal_outlined (palette : Palette α) (signal : SignalRow α) :
    (ofSignal palette signal.outlined).outlined = (ofSignal palette signal).outlined := by
  have hlabel : (signalLabel palette signal.outlined).outlined =
      (signalLabel palette signal).outlined := by
    cases hself : signal.isSelf <;>
      simp [signalLabel, SignalRow.outlined, hself, Call.outlined, Label.outline_outline]
  have hempty : signal.outlined.label = "" ↔ signal.label = "" := Label.outline_eq_empty_iff
  have hlines : signalLines palette signal.outlined = signalLines palette signal := rfl
  simp only [ofSignal, outlined_ofCalls, hlines, hempty, List.map_append]
  split
  · rfl
  · simp [hlabel]

theorem ofFragment_outlined {measure : String → Size α}
    (hmeasure : ∀ text, measure (Label.outline text) = measure text) (palette : Palette α)
    (fragment : FragmentBox α) :
    (ofFragment measure palette fragment.outlined).outlined =
      (ofFragment measure palette fragment).outlined := by
  have hheader : measure (Label.header fragment.outlined.kind fragment.outlined.label) =
      measure (Label.header fragment.kind fragment.label) :=
    measure_header hmeasure fragment.kind fragment.label
  have houtline : Label.outline (Label.header fragment.outlined.kind fragment.outlined.label) =
      Label.outline (Label.header fragment.kind fragment.label) :=
    Label.outline_header fragment.kind fragment.label
  have hdividers : (forAll (ofDivider palette fragment.outlined) fragment.outlined.dividers).outlined =
      (forAll (ofDivider palette fragment) fragment.dividers).outlined := by
    have hsame : ofDivider palette fragment.outlined = ofDivider palette fragment := rfl
    rw [hsame]
    exact outlined_forAll (ofDivider_outlined palette fragment) fragment.dividers
  simp only [ofFragment, outlined, outlined_append, outlined_ofCalls, hdividers, hheader,
    List.map_cons, List.map_nil, Call.outlined, houtline]
  rfl

/-- A layout is drawn as its outline is. -/
theorem ofLayout_outlined {measure : String → Size α}
    (hmeasure : ∀ text, measure (Label.outline text) = measure text) (palette : Palette α)
    (layout : Layout α) :
    (ofLayout measure palette layout.outlined).outlined =
      (ofLayout measure palette layout).outlined := by
  have htitle : layout.outlined.title.toList = layout.title.toList.map TitleBox.outlined := by
    rw [Layout.outlined]
    cases layout.title <;> rfl
  simp only [ofLayout, outlined_append, htitle, outlined_forAll (ofTitle_outlined palette)]
  simp only [Layout.outlined, outlined_forAll (ofFragment_outlined hmeasure palette),
    outlined_forAll (ofSignal_outlined palette), outlined_forAll (ofParticipant_outlined palette)]

end Drawing

end SequenceChart
