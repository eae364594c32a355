import Mathlib
import SequenceChart.Font
import SequenceChart.Proofs.Diagram.WellFormed
import SequenceChart.Proofs.Layout.Composed

namespace SequenceChart

namespace Layout

/-- The next signal after another one is as far below it as the height of a row without the label of
    the first one, but at least 18, and then a loop of the first one, the borders of fragments in
    between, and the label of the next one. So the two are a row apart exactly if what comes after
    the row makes up for the label of the first one, or else is high enough together with the 18. -/
structure Separated (layout : Layout ℚ) (measure : String → Size ℚ) (rowHeight : ℚ)
    (diagram : Diagram) : Prop where
  messages : layout.signals.map SignalRow.message = diagram.signals
  labels : ∀ row ∈ layout.signals, row.labelHeight = (Columns.signalSize measure row.message).height
  loops : ∀ row ∈ layout.signals, row.isSelf = row.message.isSelf
  distance : ∀ (front : List (SignalRow ℚ)) (row next : SignalRow ℚ) (back : List (SignalRow ℚ)),
    layout.signals = front ++ row :: next :: back → ∃ before between after : List Event,
      diagram.content.body.events =
        before ++ .signal row.message :: between ++ .signal next.message :: after ∧
      before.filterMap Event.signal? = front.map SignalRow.message ∧
      (∀ event ∈ between, event.signal? = none) ∧
      next.y - row.y = max (rowHeight - row.labelHeight) 18 + row.extra between next ∧
      (rowHeight ≤ next.y - row.y ↔
        row.labelHeight ≤ row.extra between next ∨ rowHeight ≤ 18 + row.extra between next)

theorem ofText_separated {measure : String → Size ℚ} (hheight : ∀ text, 0 ≤ (measure text).height)
    (options : Options ℚ) (text : String) :
    ∃ diagram problems layout, Diagram.ofText text = .ok (diagram, problems) ∧
      ofDiagram measure (Spacing.ofOptions options) diagram = .ok layout ∧
      layout.Separated measure (Spacing.ofOptions options).rowHeight diagram := by
  let diagram := ((TokenLine.statements (TokenLine.ofText text)).foldl Builder.after
    (Builder.ofDiagram {})).diagram
  have hformed : diagram.WellFormed := Diagram.foldl_after_ofText_wellFormed text
  obtain ⟨layout, spots, columns, hlayout, harranged⟩ :=
    ofDiagram_arranged measure (Spacing.descends_of_height (Spacing.ofOptions options) hheight)
      hformed.refers
  obtain ⟨top, bottom, hruns⟩ := harranged.runs
  refine ⟨diagram, _, layout, Diagram.ofText_eq_ok text, hlayout, harranged.shows.messages,
    fun row hrow => ?_, fun row hrow => (harranged.carries row hrow).isSelf,
    fun front row next back hsplit => ?_⟩
  · exact congrArg Size.height (harranged.carries row hrow).size
  · obtain ⟨before, between, after, hevents, hbefore, hbetween, hdistance⟩ :=
      hruns.distance harranged.carries hsplit
    refine ⟨before, between, after, hevents, hbefore, hbetween, hdistance, ?_⟩
    rw [hdistance, ← max_add_add_right, le_max_iff]
    refine or_congr_left ⟨fun hrow => ?_, fun hlabel => ?_⟩ <;> linarith

theorem ofText_separated_fragment :
    (∀ text, 0 ≤ (evenSize (7 : ℚ) 15 text).height) ∧
      ∃ diagram problems layout, Diagram.ofText "A -> A: hi\nloop\nA -> B: one\nend\nB -> A" =
          .ok (diagram, problems) ∧
        ofDiagram (evenSize (7 : ℚ) 15) (Spacing.ofOptions { rowHeight := some 60 }) diagram =
          .ok layout ∧
        layout.Separated (evenSize (7 : ℚ) 15) 60 diagram := by
  have hheight : ∀ text, 0 ≤ (evenSize (7 : ℚ) 15 text).height := fun text => by norm_num [evenSize]
  exact ⟨hheight, ofText_separated hheight { rowHeight := some 60 } _⟩

set_option maxRecDepth 4000 in
/-- The label of a signal above another one without a label brings the two closer than a row. -/
theorem ofText_separated_label :
    ∃ diagram layout first second,
      Diagram.ofText "A -> B: hi\nA -> B" = .ok (diagram, []) ∧
      (∀ text, 0 ≤ (evenSize (7 : ℚ) 15 text).width ∧ 0 ≤ (evenSize (7 : ℚ) 15 text).height) ∧
      ofDiagram (evenSize (7 : ℚ) 15) (Spacing.ofOptions {}) diagram = .ok layout ∧
      layout.signals = [first, second] ∧
      0 < (Spacing.ofOptions ({} : Options ℚ)).rowHeight ∧
      second.y < first.y + (Spacing.ofOptions ({} : Options ℚ)).rowHeight := by
  let rest : Body := .signal ⟨"A", "B", "", .solid, true⟩ .empty
  let diagram : Diagram :=
    { participants := [⟨"A", "A"⟩, ⟨"B", "B"⟩]
      content := ⟨"", .signal ⟨"A", "B", "hi", .solid, true⟩ rest⟩ }
  let first : SignalRow ℚ := ⟨0, "A", "B", "hi", .solid, true, 70, 210, 101, false, 14, 15⟩
  let second : SignalRow ℚ := ⟨1, "A", "B", "", .solid, true, 70, 210, 126, false, 0, 0⟩
  have hdiagram : Diagram.ofText "A -> B: hi\nA -> B" = .ok (diagram, []) := by
    cbv
  have hrows : (ofDiagram (evenSize (7 : ℚ) 15) (Spacing.ofOptions {}) diagram).map signals =
      .ok [first, second] := by
    cbv
  cases hlayout : ofDiagram (evenSize (7 : ℚ) 15) (Spacing.ofOptions {}) diagram with
  | error error =>
    rw [hlayout] at hrows
    cases hrows
  | ok layout =>
    rw [hlayout] at hrows
    refine ⟨diagram, layout, first, second, hdiagram, fun text => ?_, hlayout, Except.ok.inj hrows,
      ?_, ?_⟩
    · simp only [evenSize, ofCount_eq_cast]
      constructor <;> positivity
    · norm_num [Spacing.ofOptions]
    · norm_num [Spacing.ofOptions, first, second]

end Layout

end SequenceChart
