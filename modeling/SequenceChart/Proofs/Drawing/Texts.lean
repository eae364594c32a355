import SequenceChart.Proofs.Drawing.Rendering
import SequenceChart.Proofs.Layout.Traced

namespace SequenceChart

/-- The text that a call draws. -/
def Call.shown? {α : Type} : Call α → Option String
  | .text label .. => some label
  | _ => none

/-- The texts of a fragment: its header, and the guards of its later operands in brackets, if they
    have one. -/
def Fragment.texts (fragment : Fragment) : List String :=
  fragment.header :: ((fragment.operands.guards.drop 1).map Label.divider).filter (· ≠ "")

/-- The texts of a diagram in the order in which they are drawn. -/
def Diagram.shown (diagram : Diagram) : List String :=
  (nonempty? diagram.title).toList ++
    ((diagram.content.body.fragments 0).flatMap Fragment.texts ++
      ((diagram.signals.map Signal.label).filter (· ≠ "") ++
        diagram.participants.map Participant.label))

namespace Drawing

section Calls

variable {α : Type}

/-- The texts of a drawing, in order. -/
def texts (drawing : Drawing α) : List String :=
  drawing.calls.filterMap Call.shown?

theorem texts_append (first second : Drawing α) :
    (first ++ second).texts = first.texts ++ second.texts := by
  rw [texts, calls_append, List.filterMap_append]
  rfl

theorem texts_ofCalls (calls : List (Call α)) : (ofCalls calls).texts = calls.filterMap Call.shown? := by
  rw [texts, calls_ofCalls]

theorem texts_within (dx dy : α) (body rest : Drawing α) :
    (within dx dy body rest).texts = body.texts ++ rest.texts := by
  rw [texts, calls, List.filterMap_append]
  rfl

theorem texts_forAll {β : Type} (draw : β → Drawing α) (items : List β) :
    (forAll draw items).texts = items.flatMap fun item => (draw item).texts := by
  rw [texts, calls_forAll, List.filterMap_flatMap]
  rfl

end Calls

variable {α : Type} [Sub α] [Div α] [∀ n, OfNat α n]

theorem texts_ofDivider (palette : Palette α) (fragment : FragmentBox α) (divider : Divider α) :
    (ofDivider palette fragment divider).texts =
      [Label.divider divider.label].filter (· ≠ "") := by
  rw [ofDivider, texts_ofCalls]
  by_cases htext : Label.divider divider.label = "" <;>
    simp [htext, Call.shown?, List.filterMap_cons]

variable [Add α] [LT α] [DecidableLT α]

theorem texts_ofSignal (palette : Palette α) (signal : SignalRow α) :
    (ofSignal palette signal).texts = [signal.label].filter (· ≠ "") := by
  have hsegment (dashed hasHead : Bool) (start stop : Point α) :
      (segment palette dashed hasHead start stop).shown? = none := by
    rw [segment]
    split <;> rfl
  have hlines : (signalLines palette signal).filterMap Call.shown? = [] := by
    simp only [signalLines]
    split <;> simp [hsegment]
  have hlabel : (signalLabel palette signal).shown? = some signal.label := by
    simp only [signalLabel]
    split <;> rfl
  rw [ofSignal, texts_ofCalls, List.filterMap_append, hlines]
  by_cases htext : signal.label = "" <;> simp [htext, hlabel]

theorem texts_ofFragment (measure : String → Size α) (palette : Palette α) {fragment : Fragment}
    {box : FragmentBox α} (hdisplays : box.Displays fragment) :
    (ofFragment measure palette box).texts = fragment.texts := by
  have hdividers : (forAll (ofDivider palette box) box.dividers).texts =
      ((fragment.operands.guards.drop 1).map Label.divider).filter (· ≠ "") := by
    simp only [texts_forAll, texts_ofDivider, ← hdisplays.dividers]
    induction box.dividers with
    | nil => rfl
    | cons divider rest ih =>
      rw [List.flatMap_cons, ih, List.map_cons, List.map_cons, ← List.filter_append]
      rfl
  have hmeasure (header : String) (rest : Drawing α) :
      (call (.measure header) rest).texts = rest.texts := rfl
  simp only [ofFragment, hmeasure, texts_within, texts_append, hdividers, texts_ofCalls, Fragment.texts,
    Fragment.header, hdisplays.kind, hdisplays.label]
  exact List.append_nil _

/-- A layout that presents a diagram is drawn with all texts of the diagram, in order. -/
theorem texts_ofLayout (measure : String → Size α) (palette : Palette α) {layout : Layout α}
    {grid : Grid α} {diagram : Diagram} (hpresents : layout.Presents grid diagram) :
    (ofLayout measure palette layout).texts = diagram.shown := by
  have htitle : (forAll (ofTitle palette) layout.title.toList).texts =
      (nonempty? diagram.title).toList := by
    rw [← hpresents.titled, texts_forAll]
    cases layout.title <;> rfl
  have hfragments {fragments : List Fragment} {boxes : List (FragmentBox α)}
      (hboxed : List.Forall₂ FragmentBox.Displays fragments boxes) :
      (forAll (ofFragment measure palette) boxes).texts = fragments.flatMap Fragment.texts := by
    rw [texts_forAll]
    induction hboxed with
    | nil => rfl
    | cons hbox _ ih =>
      rw [List.flatMap_cons, List.flatMap_cons, ih, texts_ofFragment measure palette hbox]
  have hlifelines : (forAll (ofLifeline palette) layout.lifelines).texts = [] := by
    rw [texts_forAll]
    exact List.flatMap_eq_nil_iff.2 fun _ _ => rfl
  have hactivations : (forAll (ofActivation palette) layout.activations).texts = [] := by
    rw [texts_forAll]
    exact List.flatMap_eq_nil_iff.2 fun _ _ => rfl
  have hsignals {signals : List Signal} {rows : List (SignalRow α)}
      (hshown : List.Forall₂ grid.Displays signals rows) :
      (forAll (ofSignal palette) rows).texts = (signals.map Signal.label).filter (· ≠ "") := by
    rw [texts_forAll]
    induction hshown with
    | nil => rfl
    | cons hrow _ ih =>
      rw [List.flatMap_cons, ih, texts_ofSignal, hrow.label, List.map_cons, ← List.filter_append]
      rfl
  have hparticipants : (forAll (ofParticipant palette) layout.participants).texts =
      diagram.participants.map Participant.label := by
    rw [← hpresents.labelled, texts_forAll, List.map_eq_flatMap]
    rfl
  simp only [ofLayout, texts_append, htitle, hfragments hpresents.boxed, hlifelines, hactivations,
    hsignals hpresents.shown, hparticipants, Diagram.shown, List.nil_append]

end Drawing

end SequenceChart
