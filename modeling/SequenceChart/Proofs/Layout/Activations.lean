import Mathlib
import SequenceChart.Diagram.OfText
import SequenceChart.Font
import SequenceChart.Proofs.Diagram.WellFormed
import SequenceChart.Proofs.Layout.Bars
import SequenceChart.Proofs.Layout.Traced

namespace SequenceChart

open Distance

namespace Grid

variable {grid : Grid ℚ}

/-- The rows of an activity are below its upper end, and not below the last signal when it ends. -/
theorem Runs.during (hheight : ∀ text, 0 ≤ (grid.measure text).height) {y bottom : ℚ}
    {course back : List Event} {rows : List (SignalRow ℚ)} (hruns : grid.Runs y course rows bottom)
    {activity : Activity} (hcourse : course =
      activity.front ++ .activation activity.name true :: (activity.during ++ back)) :
    ∃ above inside below, rows = above ++ inside ++ below ∧
      above.map SignalRow.message = activity.front.filterMap Event.signal? ∧
      inside.map SignalRow.message = activity.during.filterMap Event.signal? ∧
      ∀ row ∈ inside, (grid.begun { y } activity).line < row.y ∧
        ∃ last ∈ (grid.reached { y } activity).lastSignal, row.y ≤ last := by
  let front := activity.front ++ [Event.activation activity.name true]
  have hparts : course = front ++ activity.during ++ back := by
    simp [front, hcourse]
  have hstart : (grid.begun { y } activity).y = y + grid.descent front := foldl_cursorAfter_y _ front
  have hsettled : Settled (grid.begun { y } activity) := (settled_start y).foldl hheight front
  rw [hparts] at hruns
  obtain ⟨above, inside, below, hrows, habove, hinside⟩ := hruns.split
  rw [← hstart] at hinside
  refine ⟨above, inside, below, hrows, ?_, ?_, fun row hrow => ?_⟩
  · rw [habove]
    simp [front, Event.signal?]
  · rw [← map_fst_lines (grid.begun { y } activity).y, ← hinside, List.map_map]
    rfl
  · apply (lines_between hheight hsettled activity.during).2 (row.message, row.y)
    rw [← hinside]
    exact List.mem_map_of_mem hrow

end Grid

namespace Layout

/-- What the bar of an activity shows in a layout with default spacing. The bar of one that is ended has a
    height and extends over all signals in between. Any other one ends half a row above the end of the
    rows, that is 60 above the lower edge of the diagram, which may be above some of the signals. If it is
    even above the upper end, the bar has no height. -/
structure Marks (layout : Layout ℚ) (course : List Event) (activity : Activity)
    (bar : ActivationBar ℚ) : Prop where
  lasts : activity.Lasts course
  participant : bar.participant = activity.name
  rows : ∃ above inside below, layout.signals = above ++ inside ++ below ∧
    above.map SignalRow.message = activity.front.filterMap Event.signal? ∧
    inside.map SignalRow.message = activity.during.filterMap Event.signal? ∧
    (∀ row ∈ inside, bar.top < row.y) ∧
    if activity.ended then bar.top < bar.bottom ∧ ∀ row ∈ inside, row.y ≤ bar.bottom
    else bar.bottom = max (layout.height - 60) bar.top ∧
      (bar.top < bar.bottom ↔ bar.top < layout.height - 60) ∧
      ∀ row ∈ inside, row.y ≤ bar.bottom ↔ row.y ≤ layout.height - 60

/-- With default spacing, the bar that an activity has in a chart marks it. -/
theorem Charts.marks {layout : Layout ℚ} {grid : Grid ℚ}
    (hheight : ∀ text, 0 ≤ (grid.measure text).height) (hspacing : grid.spacing = .ofOptions {})
    {top bottom : ℚ} {course : List Event} (hcharts : layout.Charts grid top course bottom)
    {activity : Activity} (hlasts : activity.Lasts course) :
    layout.Marks course activity (grid.barOf { y := top } activity) := by
  obtain ⟨back, hcourse, -⟩ := hlasts.split
  obtain ⟨above, inside, below, hrows, habove, hinside, hbetween⟩ := hcharts.runs.during hheight hcourse
  have hrow : grid.spacing.rowHeight = 40 := by
    rw [hspacing]
    rfl
  have hlower : layout.height = bottom + 40 := by
    rw [hcharts.height, hspacing, add_assoc]
    exact congrArg (bottom + ·) (by decide +kernel)
  rw [← Grid.barOf_top] at hbetween
  refine ⟨hlasts, rfl, above, inside, below, hrows, habove, hinside,
    fun row hrow => (hbetween row hrow).1, ?_⟩
  cases hended : activity.ended with
  | true =>
    rw [if_pos rfl, Grid.barOf_bottom_of_ended hended]
    refine ⟨Grid.lt_stop (by linarith) _ _, fun row hrow => ?_⟩
    obtain ⟨hbegun, last, hlast, hle⟩ := hbetween row hrow
    exact hle.trans (Grid.stop_of_lt hlast (hbegun.trans_le hle)).ge
  | false =>
    have hhalf : bottom - grid.spacing.rowHeight / 2 = layout.height - 60 := by linarith
    rw [if_neg (by decide), Grid.barOf_bottom_of_unended hended, hcharts.reached_y hlasts hended, hhalf]
    refine ⟨rfl, by rw [lt_max_iff, or_iff_left (lt_irrefl _)], fun row hrow => ?_⟩
    rw [le_max_iff, or_iff_left (hbetween row hrow).1.not_ge]

/-- Each activity of a participant has a bar of its own, and there are no other bars. -/
theorem ofDiagram_marked {measure : String → Size ℚ} (hheight : ∀ text, 0 ≤ (measure text).height)
    {diagram : Diagram} {layout : Layout ℚ}
    (hlayout : ofDiagram measure (Spacing.ofOptions {}) diagram = .ok layout) (name : String) :
    ∃ bars : List (ActivationBar ℚ),
      bars.Perm (layout.activations.filter (·.participant = name)) ∧
      List.Forall₂ (layout.Marks diagram.content.body.events)
        (Activity.ofCourse name [] diagram.content.body.events) bars := by
  obtain ⟨columns, hcolumns, -⟩ := ofDiagram_presents hlayout
  obtain ⟨top, bottom, hcharts⟩ := ofDiagram_charts hcolumns hlayout
  let grid : Grid ℚ := ⟨diagram.participants, columns, Spacing.ofOptions {}, measure⟩
  refine ⟨(Activity.ofCourse name [] diagram.content.body.events).map (grid.barOf { y := top }), ?_, ?_⟩
  · have hperm := hcharts.bars.filter (·.participant = name)
    rw [List.filter_map] at hperm
    rw [← Activity.filter_inCourse]
    exact hperm.symm
  · rw [List.forall₂_map_right_iff, List.forall₂_same]
    exact fun activity hactivity => hcharts.marks hheight rfl (Activity.lasts_of_mem hactivity).2

theorem ofText_marked {measure : String → Size ℚ} (hheight : ∀ text, 0 ≤ (measure text).height)
    (text : String) :
    ∃ diagram problems layout, Diagram.ofText text = .ok (diagram, problems) ∧
      ofDiagram measure (Spacing.ofOptions {}) diagram = .ok layout ∧
      layout.signals.map SignalRow.message = diagram.signals ∧
      ∀ name, ∃ bars : List (ActivationBar ℚ),
        bars.Perm (layout.activations.filter (·.participant = name)) ∧
        List.Forall₂ (layout.Marks diagram.content.body.events)
          (Activity.ofCourse name [] diagram.content.body.events) bars := by
  let diagram := ((TokenLine.statements (TokenLine.ofText text)).foldl Builder.after
    (Builder.ofDiagram {})).diagram
  have hformed : diagram.WellFormed := Diagram.foldl_after_ofText_wellFormed text
  have hdescends := Spacing.descends_of_height (Spacing.ofOptions {}) hheight
  obtain ⟨layout, spots, columns, hlayout, harranged⟩ := ofDiagram_arranged measure hdescends hformed.refers
  exact ⟨diagram, _, layout, Diagram.ofText_eq_ok text, hlayout, harranged.shows.messages,
    ofDiagram_marked hheight hlayout⟩

theorem ofText_marked_nested :
    (∀ text, 0 ≤ (evenSize (7 : ℚ) 15 text).height) ∧
      ∃ diagram problems layout,
        Diagram.ofText "A -> B\nactivate B\nactivate B\nB -> A: hi\ndeactivate B\nB -> A" =
          .ok (diagram, problems) ∧
        ofDiagram (evenSize (7 : ℚ) 15) (Spacing.ofOptions {}) diagram = .ok layout ∧
        layout.signals.map SignalRow.message = diagram.signals ∧
        ∀ name, ∃ bars : List (ActivationBar ℚ),
          bars.Perm (layout.activations.filter (·.participant = name)) ∧
          List.Forall₂ (layout.Marks diagram.content.body.events)
            (Activity.ofCourse name [] diagram.content.body.events) bars := by
  have hheight : ∀ text, 0 ≤ (evenSize (7 : ℚ) 15 text).height := by
    intro text
    simp only [evenSize]
    linarith
  exact ⟨hheight, ofText_marked hheight _⟩

set_option maxRecDepth 4000 in
/-- The bar of an activation that is not ended stops above the last signal, or has no height. -/
theorem ofText_marked_unclosed :
    ∃ diagram layout row first second,
      Diagram.ofText "activate A\nA -> B: hi\nactivate B" = .ok (diagram, []) ∧
      diagram.content.body.events =
        [.activation "A" true, .signal row.message, .activation "B" true] ∧
      (∀ text, 0 ≤ (evenSize (7 : ℚ) 15 text).width ∧ 0 ≤ (evenSize (7 : ℚ) 15 text).height) ∧
      ofDiagram (evenSize (7 : ℚ) 15) (Spacing.ofOptions {}) diagram = .ok layout ∧
      layout.signals = [row] ∧ layout.activations = [first, second] ∧
      first.participant = "A" ∧ first.bottom < row.y ∧
      second.participant = "B" ∧ second.bottom = second.top := by
  let message : Signal := ⟨"A", "B", "hi", .solid, true⟩
  let diagram : Diagram :=
    { participants := [⟨"A", "A"⟩, ⟨"B", "B"⟩]
      content := ⟨"", .activation "A" true (.signal message (.activation "B" true .empty))⟩ }
  let row : SignalRow ℚ := ⟨0, "A", "B", "hi", .solid, true, 70, 210, 101, false, 14, 15⟩
  let first : ActivationBar ℚ := ⟨"A", 65, 80, 100, 10⟩
  let second : ActivationBar ℚ := ⟨"B", 205, 101, 101, 10⟩
  have hdiagram : Diagram.ofText "activate A\nA -> B: hi\nactivate B" = .ok (diagram, []) := by
    cbv
  have hplaced : (ofDiagram (evenSize (7 : ℚ) 15) (Spacing.ofOptions {}) diagram).map
      (fun layout => (layout.signals, layout.activations)) = .ok ([row], [first, second]) := by
    decide +kernel
  obtain ⟨layout, hlayout, hplaced⟩ := map_eq_ok_iff.1 hplaced
  obtain ⟨hsignals, hactivations⟩ := Prod.mk.inj hplaced
  refine ⟨diagram, layout, row, first, second, hdiagram, rfl, fun text => ?_, hlayout, hsignals,
    hactivations, rfl, by decide +kernel, rfl, rfl⟩
  simp only [evenSize, ofCount_eq_cast]
  constructor <;> positivity

end Layout

end SequenceChart
