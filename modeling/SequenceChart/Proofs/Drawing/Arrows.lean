import SequenceChart.Proofs.Drawing.Success
import SequenceChart.Proofs.Drawing.Texts

namespace SequenceChart

/-- The kind of a call, if it draws an arrow. -/
def Call.arrow? {α : Type} : Call α → Option CallKind
  | .arrow dashed .. => some (if dashed then .dashedArrow else .arrow)
  | _ => none

/-- The kind of the call that draws the arrow of a signal. -/
def Signal.arrowKind (signal : Signal) : CallKind :=
  if signal.style = .dashed then .dashedArrow else .arrow

namespace Drawing

section Lines

variable {α : Type} [Add α] [Div α] [∀ n, OfNat α n]

/-- Of the parts of a signal only the last one has the head, and only if the signal has one. -/
theorem arrows_signalLines {grid : Grid α} (palette : Palette α) {signal : Signal} {row : SignalRow α}
    (hdisplays : grid.Displays signal row) :
    (signalLines palette row).filterMap Call.arrow? =
      ([signal].filter Signal.hasHead).map Signal.arrowKind := by
  have hsegment (hasHead : Bool) (start stop : Point α) :
      (segment palette (row.style = .dashed) hasHead start stop).arrow? =
        if hasHead then some signal.arrowKind else none := by
    rw [segment, Signal.arrowKind, hdisplays.style]
    split
    · simp [Call.arrow?]
    · rfl
  simp only [signalLines, hdisplays.hasHead]
  cases hhead : signal.hasHead <;> split <;> simp [hsegment, hhead]

end Lines

variable {α : Type} [Sub α] [Div α] [∀ n, OfNat α n]

theorem arrow?_ofDivider (palette : Palette α) (fragment : FragmentBox α) (divider : Divider α) :
    ∀ c ∈ (ofDivider palette fragment divider).calls, c.arrow? = none := by
  simp only [ofDivider, calls_ofCalls, List.forall_mem_cons]
  refine ⟨rfl, ?_⟩
  split <;> simp [Call.arrow?]

variable [Add α] [LT α] [DecidableLT α]

theorem arrow?_ofFragment (measure : String → Size α) (palette : Palette α) (fragment : FragmentBox α) :
    ∀ c ∈ (ofFragment measure palette fragment).calls, c.arrow? = none := by
  have hdividers := forall_calls_forAll (arrow?_ofDivider palette fragment) fragment.dividers
  simp only [ofFragment, calls, calls_append, calls_ofCalls, List.cons_append, List.nil_append,
    List.forall_mem_cons, List.forall_mem_append]
  exact ⟨rfl, rfl, rfl, rfl, rfl, rfl, hdividers, rfl, List.forall_mem_nil _⟩

theorem arrow?_signalLabel (palette : Palette α) (row : SignalRow α) :
    (signalLabel palette row).arrow? = none := by
  simp only [signalLabel]
  split <;> rfl

/-- All arrows of a layout are parts of signals. -/
theorem arrowCalls_ofLayout (measure : String → Size α) (palette : Palette α) (layout : Layout α) :
    (ofLayout measure palette layout).calls.filter (·.arrow?.isSome) =
      layout.signals.flatMap fun row => (signalLines palette row).filter (·.arrow?.isSome) := by
  have hnone {β : Type} {draw : β → Drawing α} {items : List β}
      (hdraw : ∀ item, ∀ c ∈ (draw item).calls, c.arrow? = none) :
      (forAll draw items).calls.filter (·.arrow?.isSome) = [] :=
    List.filter_eq_nil_iff.2 (forall_calls_forAll (fun item c hc => by simp [hdraw item c hc]) items)
  have hsignal (row : SignalRow α) : (ofSignal palette row).calls.filter (·.arrow?.isSome) =
      (signalLines palette row).filter (·.arrow?.isSome) := by
    rw [ofSignal, calls_ofCalls, List.filter_append]
    split <;> simp [arrow?_signalLabel]
  have htitle : (forAll (ofTitle palette) layout.title.toList).calls.filter (·.arrow?.isSome) = [] :=
    hnone fun title => by simp [ofTitle, calls_ofCalls, Call.arrow?]
  have hlifelines :
      (forAll (ofLifeline palette) layout.lifelines).calls.filter (·.arrow?.isSome) = [] :=
    hnone fun lifeline => by simp [ofLifeline, calls_ofCalls, Call.arrow?]
  have hactivations :
      (forAll (ofActivation palette) layout.activations).calls.filter (·.arrow?.isSome) = [] :=
    hnone fun bar => by simp [ofActivation, calls_ofCalls, Call.arrow?]
  have hsignals : (forAll (ofSignal palette) layout.signals).calls.filter (·.arrow?.isSome) =
      layout.signals.flatMap fun row => (signalLines palette row).filter (·.arrow?.isSome) := by
    rw [calls_forAll, List.filter_flatMap]
    exact congrArg (List.flatMap · layout.signals) (funext hsignal)
  have hparticipants :
      (forAll (ofParticipant palette) layout.participants).calls.filter (·.arrow?.isSome) = [] :=
    hnone fun participant => by simp [ofParticipant, calls, calls_ofCalls, Call.arrow?]
  simp only [ofLayout, calls_append, List.filter_append, htitle,
    hnone (arrow?_ofFragment measure palette), hlifelines, hactivations, hsignals, hparticipants,
    List.nil_append, List.append_nil]

/-- A layout that presents a diagram is drawn with one arrow for each signal that has a head, in
    order and with the line of the signal. -/
theorem arrows_ofLayout (measure : String → Size α) (palette : Palette α) {layout : Layout α}
    {grid : Grid α} {diagram : Diagram} (hpresents : layout.Presents grid diagram) :
    (ofLayout measure palette layout).calls.filterMap Call.arrow? =
      (diagram.signals.filter Signal.hasHead).map Signal.arrowKind := by
  have hkinds (calls : List (Call α)) :
      calls.filterMap Call.arrow? = (calls.filter (·.arrow?.isSome)).filterMap Call.arrow? := by
    rw [List.filterMap_filter]
    exact List.filterMap_congr fun c _ => by cases harrow : c.arrow? <;> simp
  have hshown := hpresents.shown
  rw [hkinds, arrowCalls_ofLayout, List.filterMap_flatMap]
  simp only [← hkinds]
  generalize diagram.signals = signals, layout.signals = rows at hshown
  induction hshown with
  | nil => rfl
  | @cons signal row signals rows hrow _ ih =>
    rw [List.flatMap_cons, ih, arrows_signalLines palette hrow, ← List.map_append, ← List.filter_append]
    rfl

end Drawing

variable {α : Type} [Add α] [Sub α] [Mul α] [Div α] [LT α] [DecidableLT α] [∀ n, OfNat α n]

namespace Diagram

/-- Calls that draw everything a diagram shows, once and in order: its texts, and an arrow for each
    signal that has a head. -/
structure Depicted (diagram : Diagram) (calls : List (Call α)) : Prop where
  texts : calls.filterMap Call.shown? = diagram.shown
  arrows : calls.filterMap Call.arrow? = (diagram.signals.filter Signal.hasHead).map Signal.arrowKind

theorem rendering_depicted {measure : String → Size α} {options : Options α} {diagram : Diagram}
    {layout : Layout α} (hlayout : Layout.ofDiagram measure (Spacing.ofOptions options) diagram = .ok layout)
    (palette : Palette α) : diagram.Depicted (diagram.rendering measure palette layout).calls := by
  obtain ⟨columns, -, hpresents⟩ := Layout.ofDiagram_presents hlayout
  have hquestions {B : Type} {f : Call α → Option B} (hmeasure : ∀ text, f (.measure text) = none) :
      diagram.questions.filterMap f = [] := by
    simp [questions, hmeasure]
  rw [rendering]
  refine ⟨?_, ?_⟩
  · rw [Drawing.calls_append, Drawing.calls_ofCalls, List.filterMap_append, hquestions fun _ => rfl]
    exact Drawing.texts_ofLayout measure palette hpresents
  · rw [Drawing.calls_append, Drawing.calls_ofCalls, List.filterMap_append, hquestions fun _ => rfl]
    exact Drawing.arrows_ofLayout measure palette hpresents

variable [Coordinate α]

/-- When a diagram is rendered, nothing is left out and nothing is drawn twice. Every surface on which
    the rendering comes to its end, as it does on those that answer all proper calls, has completed
    calls that depict the diagram. -/
theorem render_depicts [LE α] (hquarters : ¬ (3 / 4 : α) ≤ 0) (measure : String → Size α)
    {options : Options α} (haccepted : ¬ options.Rejected) {diagram : Diagram}
    (hrefers : ∀ name ∈ diagram.content.body.named, name ∈ diagram.names) :
    ∃ layout calls, Layout.ofDiagram measure (Spacing.ofOptions options) diagram = .ok layout ∧
      diagram.Depicted calls ∧
      ∀ {σ ε : Type} (surface : Surface α σ ε) (start : σ),
        (∀ after returned completed,
          (diagram.render surface.recorded measure options).run (start, []) =
              (.ok returned, after, completed) →
            returned = layout ∧ completed = calls) ∧
        ∀ depth, surface.Obliging depth → ∃ after,
          (diagram.render surface.recorded measure options).run (start, []) = (.ok layout, after, calls) := by
  have hwidth : ¬ (Drawing.strokeWidth : α) ≤ 0 := hquarters
  obtain ⟨layout, hlayout⟩ := Layout.ofDiagram_of_listed measure (Spacing.ofOptions options) hrefers
  obtain ⟨palette, hpalette⟩ := Palette.ofOptions_eq_ok_iff.2 haccepted
  have hrenders := rendersBy_rendering hlayout hpalette
  refine ⟨layout, _, hlayout, rendering_depicted hlayout palette, fun surface start => ⟨?_, ?_⟩⟩
  · intro after returned completed hrun
    obtain ⟨hreturned, hcompleted, -⟩ := (hrenders.complete surface start after returned completed).1 hrun
    exact ⟨hreturned, hcompleted⟩
  · intro depth hobliging
    obtain ⟨after, hanswers, -⟩ := hobliging.run (flat_rendering measure palette layout diagram)
      (proper_rendering hwidth measure palette layout diagram) start
    exact ⟨after, (hrenders.complete surface start after layout _).2 ⟨rfl, rfl, hanswers⟩⟩

theorem render_depicts_loop :
    let inner : Operands := .cons "" (.signal ⟨"B", "B", "again", .dashed, true⟩ .empty) .none
    let outer : Operands := .cons "yes" (.fragment "loop" inner .empty)
      (.cons "no" (.signal ⟨"B", "A", "", .solid, false⟩ .empty) .none)
    let diagram : Diagram :=
      { title := some "T", participants := [⟨"A", "Al"⟩, ⟨"B", "B"⟩]
        content := ⟨"", .signal ⟨"A", "B", "hi", .solid, true⟩ (.fragment "alt" outer .empty)⟩ }
    let options : Options ℚ := { theme := some "nord" }
    ¬ (3 / 4 : ℚ) ≤ 0 ∧ ¬ options.Rejected ∧
      (∀ name ∈ diagram.content.body.named, name ∈ diagram.names) ∧
      diagram.shown = ["T", "alt [yes]", "[no]", "loop", "hi", "again", "Al", "B"] ∧
      (diagram.signals.filter Signal.hasHead).map Signal.arrowKind = [.arrow, .dashedArrow] ∧
      ∃ layout calls,
        Layout.ofDiagram (evenSize 7 15) (Spacing.ofOptions options) diagram = .ok layout ∧
          diagram.Depicted calls ∧
          ∀ {σ ε : Type} (surface : Surface ℚ σ ε) (start : σ),
            (∀ after returned completed,
              (diagram.render surface.recorded (evenSize 7 15) options).run (start, []) =
                  (.ok returned, after, completed) →
                returned = layout ∧ completed = calls) ∧
            ∀ depth, surface.Obliging depth → ∃ after,
              (diagram.render surface.recorded (evenSize 7 15) options).run (start, []) =
                (.ok layout, after, calls) := by
  intro inner outer diagram options
  have hquarters : ¬ (3 / 4 : ℚ) ≤ 0 := by norm_num
  have haccepted : ¬ options.Rejected := by simp [options, Options.Rejected, nonempty?, Colors.themes]
  have hrefers : ∀ name ∈ diagram.content.body.named, name ∈ diagram.names := by decide
  exact ⟨hquarters, haccepted, hrefers, by decide, by decide,
    render_depicts hquarters _ haccepted hrefers⟩

end Diagram

end SequenceChart
