import Mathlib
import SequenceChart.Diagram.OfText
import SequenceChart.Proofs.Diagram.WellFormed
import SequenceChart.Proofs.Layout.Depicted
import SequenceChart.Proofs.Layout.Surrounded

namespace SequenceChart

open Distance

theorem Event.filterMap_signal?_eq_nil_iff {course : List Event} :
    course.filterMap Event.signal? = [] ↔ ¬ ∃ signal, .signal signal ∈ course := by
  rw [List.filterMap_eq_nil_iff, not_exists]
  constructor
  · intro hnone signal hmem
    exact Option.some_ne_none signal (hnone _ hmem)
  · intro hnone event hmem
    cases event with
    | signal message => exact absurd hmem (hnone message)
    | _ => rfl

namespace Grid

variable {grid : Grid ℚ} {cursor : Cursor ℚ}

theorem descent_nonneg (hheight : ∀ text, 0 ≤ (grid.measure text).height) (course : List Event) :
    0 ≤ grid.descent course :=
  List.sum_nonneg (List.forall_mem_map.2 fun event _ => advance_nonneg hheight event)

/-- A course with a signal leads down by a row at least. -/
theorem rowHeight_le_descent (hheight : ∀ text, 0 ≤ (grid.measure text).height) {course : List Event}
    {signal : Signal} (hsignal : .signal signal ∈ course) :
    grid.spacing.rowHeight ≤ grid.descent course := by
  obtain ⟨front, back, rfl⟩ := List.append_of_mem hsignal
  have hrow : grid.spacing.rowHeight ≤ grid.advance (.signal signal) := by
    rw [advance, larger_eq_max]
    have hband := le_max_left grid.spacing.rowHeight (grid.labelBand signal + labelGap * 2)
    simp only [loopRow]
    split <;> linarith
  have hback : grid.descent (.signal signal :: back) =
      grid.advance (.signal signal) + grid.descent back := rfl
  rw [descent_append, hback]
  linarith [descent_nonneg hheight front, descent_nonneg hheight back]

theorem Settled.line_le_foldl (hheight : ∀ text, 0 ≤ (grid.measure text).height)
    (hcursor : Settled cursor) (course : List Event) :
    cursor.line ≤ (course.foldl grid.cursorAfter cursor).line := by
  induction course generalizing cursor with
  | nil => exact le_rfl
  | cons event rest ih =>
    exact (hcursor.line_le_after hheight event).trans (ih (hcursor.after hheight event))

/-- An activation that ends without a signal in between gets half a row. -/
theorem stop_foldl_line {during : List Event} (hduring : during.filterMap Event.signal? = [])
    (cursor : Cursor ℚ) : grid.stop (during.foldl grid.cursorAfter cursor) cursor.line =
      cursor.line + grid.spacing.rowHeight / 2 := by
  rw [stop_eq, lastSignal_foldl, lines_eq_nil_iff.2 hduring, Cursor.line]
  cases cursor.lastSignal with
  | none => rfl
  | some last => simp [Option.filter_some]

/-- An activation ends above the end of the rows if there is another signal in or behind it. -/
theorem stop_foldl_le (hheight : ∀ text, 0 ≤ (grid.measure text).height)
    (hrow : 0 < grid.spacing.rowHeight) (hcursor : Settled cursor) {during back : List Event}
    {signal : Signal} (hsignal : .signal signal ∈ during ++ back) :
    grid.stop (during.foldl grid.cursorAfter cursor) cursor.line ≤
      cursor.y + grid.descent (during ++ back) := by
  have hsettled := hcursor.foldl hheight during
  have hafter : (during.foldl grid.cursorAfter cursor).y = cursor.y + grid.descent during :=
    foldl_cursorAfter_y cursor during
  have hrows := rowHeight_le_descent hheight hsignal
  have hline := hcursor.line_le
  rw [stop]
  split
  · linarith
  · next last hlast =>
    have hlower := hsettled last hlast
    have hback := descent_nonneg hheight back
    rw [descent_append] at hrows ⊢
    split <;> linarith

end Grid

namespace Layout

/-- How much further down than the last of its signals a first part of a course leads: what is left of
    the row of that signal, its loop, and the borders of fragments since. -/
def slack (layout : Layout ℚ) (rowHeight : ℚ) (front : List Event) : ℚ :=
  match layout.lastRow? front with
  | none => 0
  | some row => max (rowHeight - row.labelHeight) 18 - 6 + (if row.isSelf then 30 else 0) +
      Event.borders (front.rtakeWhile (·.signal? = none))

theorem le_slack {layout : Layout ℚ} {front : List Event} {row : SignalRow ℚ}
    (hrow : layout.lastRow? front = some row) (rowHeight : ℚ) : 12 ≤ layout.slack rowHeight front := by
  have hroom := le_max_right (rowHeight - row.labelHeight) 18
  have hborders := Event.borders_nonneg (front.rtakeWhile (·.signal? = none))
  have hloop : (0 : ℚ) ≤ if row.isSelf then 30 else 0 := by split <;> norm_num
  simp only [slack, hrow]
  linarith

/-- A bar begins below the head of the lifeline of its participant. It ends above its foot if its activity
    is not ended, if there is another signal behind its beginning, or if half a row fits into what is left
    from there to the foot. That is always so if there is any signal and rows are at most 44 high. -/
def HangsOn (layout : Layout ℚ) (rowHeight : ℚ) (course : List Event) (activity : Activity)
    (bar : ActivationBar ℚ) : Prop :=
  ∃ line later, layout.lifeline? activity.name = some line ∧
    course = activity.front ++ .activation activity.name true :: later ∧
    line.top + 10 ≤ bar.top ∧
    (bar.bottom ≤ line.bottom ↔
      activity.ended = false ∨ (∃ signal, .signal signal ∈ later) ∨
        rowHeight / 2 ≤ layout.slack rowHeight activity.front + Event.borders later + 10) ∧
    (rowHeight ≤ 44 → layout.signals ≠ [] → bar.bottom ≤ line.bottom)

section Charts

variable {layout : Layout ℚ} {grid : Grid ℚ} {top bottom : ℚ} {course : List Event}

theorem Charts.lastRow?_concat (hcharts : layout.Charts grid top course bottom)
    {front back : List Event} {message : Signal} (hcourse : course = front ++ .signal message :: back) :
    ∃ row ∈ layout.signals, layout.lastRow? (front ++ [.signal message]) = some row ∧
      row.message = message := by
  have hmessages := hcharts.messages
  have hsignal : (Event.signal message).signal? = some message := rfl
  rw [hcourse, List.filterMap_append, List.filterMap_cons_some hsignal] at hmessages
  obtain ⟨above, rest, hrows, habove, hrest⟩ := List.map_eq_append_iff.1 hmessages
  obtain ⟨row, below, rfl, hrow, -⟩ := List.map_eq_cons_iff.1 hrest
  refine ⟨row, by simp [hrows], ?_, hrow⟩
  have hcount : ((front ++ [Event.signal message]).filterMap Event.signal?).length =
      (above ++ [row]).length := by
    rw [List.filterMap_append, ← habove]
    simp [hsignal]
  have hparts : layout.signals = (above ++ [row]) ++ below := by simp [hrows]
  rw [lastRow?, hcount, hparts, List.take_left, List.getLast?_concat]

/-- Events other than signals lead down by their borders. -/
theorem Charts.line_add_slack_concat (hcharts : layout.Charts grid top course bottom)
    {front back : List Event} {event : Event} (hcourse : course = front ++ event :: back)
    (hevent : event.signal? = none)
    (hslack : (front.foldl grid.cursorAfter { y := top }).line +
      layout.slack grid.spacing.rowHeight front = (front.foldl grid.cursorAfter { y := top }).y) :
    ((front ++ [event]).foldl grid.cursorAfter { y := top }).line +
        layout.slack grid.spacing.rowHeight (front ++ [event]) =
      ((front ++ [event]).foldl grid.cursorAfter { y := top }).y := by
  have hsame : layout.lastRow? (front ++ [event]) = layout.lastRow? front := by
    apply lastRow?_congr
    simp [hevent]
  have hlater : course = (front ++ [event]) ++ back := by simp [hcourse]
  have hrest : (front ++ [event]).rtakeWhile (·.signal? = none) =
      front.rtakeWhile (·.signal? = none) ++ [event] :=
    List.rtakeWhile_concat_pos _ _ _ (by simp [hevent])
  have hy : ((front ++ [event]).foldl grid.cursorAfter { y := top }).y =
      (front.foldl grid.cursorAfter { y := top }).y + event.border := by
    rw [List.foldl_concat, Grid.cursorAfter_y, Grid.advance_eq_border hevent]
  rw [Cursor.line, ← hcharts.lastLine?_eq hcourse, lastLine?, slack] at hslack
  rw [Cursor.line, ← hcharts.lastLine?_eq hlater, lastLine?, slack, hsame, hrest, hy]
  cases hrow : layout.lastRow? front with
  | none => simp
  | some row =>
    simp only [hrow, Option.map_some, Option.getD_some] at hslack ⊢
    rw [Event.borders_concat, ← hslack]
    ring

/-- The last signal is as far above the cursor as there is slack. -/
theorem Charts.line_add_slack (hcharts : layout.Charts grid top course bottom)
    (hcarries : ∀ row ∈ layout.signals, grid.Carries row) {front back : List Event}
    (hcourse : course = front ++ back) :
    (front.foldl grid.cursorAfter { y := top }).line + layout.slack grid.spacing.rowHeight front =
      (front.foldl grid.cursorAfter { y := top }).y := by
  -- The induction is from the back: a signal begins its own slack, and all else adds to what there is.
  induction front using List.reverseRecOn generalizing back with
  | nil => simp [slack, lastRow?, Cursor.line]
  | append_singleton front event ih =>
    have hfront : course = front ++ event :: back := by simp [hcourse]
    have hbefore := ih hfront
    cases event with
    | signal message =>
      obtain ⟨row, hrow, hlast, rfl⟩ := hcharts.lastRow?_concat hfront
      have hcarry := hcarries row hrow
      have hnone : (front ++ [Event.signal row.message]).rtakeWhile (·.signal? = none) = [] :=
        List.rtakeWhile_concat_neg _ _ _ (by simp [Event.signal?])
      rw [List.foldl_concat, slack, hlast, Grid.cursorAfter, Cursor.line]
      simp only [hnone, Option.getD_some, hcarry.advance_eq, hcarry.labelBand_eq, labelGap, Event.borders,
        List.map_nil, List.sum_nil]
      ring
    | _ => exact hcharts.line_add_slack_concat hfront rfl hbefore

/-- There is a last signal in front of a part without signals, if there is any. -/
theorem Charts.exists_lastRow? (hcharts : layout.Charts grid top course bottom)
    {front back : List Event} (hcourse : course = front ++ back)
    (hback : back.filterMap Event.signal? = []) (hsignals : layout.signals ≠ []) :
    ∃ row, layout.lastRow? front = some row := by
  have hcount : (front.filterMap Event.signal?).length = layout.signals.length := by
    rw [← List.length_map SignalRow.message, hcharts.messages, hcourse, List.filterMap_append, hback,
      List.append_nil]
  rw [lastRow?, hcount, List.take_length]
  exact ⟨_, List.getLast?_eq_some_getLast hsignals⟩

theorem Charts.begun_line_add_slack (hcharts : layout.Charts grid top course bottom)
    (hcarries : ∀ row ∈ layout.signals, grid.Carries row) {activity : Activity}
    (hlasts : activity.Lasts course) :
    (grid.begun { y := top } activity).line + layout.slack grid.spacing.rowHeight activity.front =
      (grid.begun { y := top } activity).y := by
  obtain ⟨back, hcourse, -⟩ := hlasts.split
  rw [Grid.begun_line, hcharts.line_add_slack hcarries hcourse]
  simp only [Grid.begun, List.foldl_concat, Grid.cursorAfter]

/-- Whether the bar of an activity in a chart ends above the foot of the lifelines. -/
theorem Charts.bottom_le_iff (hcharts : layout.Charts grid top course bottom)
    (hheight : ∀ text, 0 ≤ (grid.measure text).height) (hrow : 0 < grid.spacing.rowHeight)
    (hcarries : ∀ row ∈ layout.signals, grid.Carries row) {activity : Activity}
    (hlasts : activity.Lasts course) {back : List Event}
    (hcourse : course = activity.front ++ .activation activity.name true :: (activity.during ++ back)) :
    (grid.barOf { y := top } activity).bottom ≤ bottom + footerGap ↔
      activity.ended = false ∨ (∃ signal, .signal signal ∈ activity.during ++ back) ∨
        grid.spacing.rowHeight / 2 ≤ layout.slack grid.spacing.rowHeight activity.front +
          Event.borders (activity.during ++ back) + 10 := by
  have hsettled : Grid.Settled (grid.begun { y := top } activity) :=
    (Grid.settled_start top).foldl hheight _
  have hbottom : bottom =
      (grid.begun { y := top } activity).y + grid.descent (activity.during ++ back) := by
    rw [← hcharts.foldl_y, hcourse, List.append_cons, List.foldl_append, Grid.foldl_cursorAfter_y]
    rfl
  cases hended : activity.ended with
  | false =>
    have hrest := Grid.descent_nonneg hheight (activity.during ++ back)
    refine iff_of_true ?_ (.inl rfl)
    rw [Grid.barOf_bottom_of_unended hended, hcharts.reached_y hlasts hended, Grid.barOf_top]
    exact max_le (by linarith) (by linarith [hsettled.line_le])
  | true =>
    rw [Grid.barOf_bottom_of_ended hended, Grid.barOf_top, Grid.reached]
    by_cases hsignal : ∃ signal, .signal signal ∈ activity.during ++ back
    · obtain ⟨signal, hmem⟩ := hsignal
      have hstop := Grid.stop_foldl_le hheight hrow hsettled hmem
      exact iff_of_true (by linarith) (.inr (.inl ⟨signal, hmem⟩))
    · -- Only borders are left down to the foot, and half a row has to fit into them and the slack.
      have hnone : (activity.during ++ back).filterMap Event.signal? = [] :=
        Event.filterMap_signal?_eq_nil_iff.2 hsignal
      have hborders : grid.descent (activity.during ++ back) = _ := Grid.descent_of_filterMap_eq_nil hnone
      have hslack := hcharts.begun_line_add_slack hcarries hlasts
      rw [List.filterMap_append, List.append_eq_nil_iff] at hnone
      rw [or_iff_right (by decide), or_iff_right hsignal, Grid.stop_foldl_line hnone.1, hbottom, hborders]
      constructor <;> intro hfits <;> linarith

/-- The bar that an activity has in a chart hangs on the lifeline of its participant. -/
theorem Charts.hangsOn (hcharts : layout.Charts grid top course bottom)
    (hheight : ∀ text, 0 ≤ (grid.measure text).height) (hrow : 0 < grid.spacing.rowHeight)
    (hcarries : ∀ row ∈ layout.signals, grid.Carries row)
    (hdistinct : (grid.participants.map Participant.name).Nodup) {activity : Activity}
    (hlasts : activity.Lasts course) (hname : activity.name ∈ grid.participants.map Participant.name) :
    layout.HangsOn grid.spacing.rowHeight course activity (grid.barOf { y := top } activity) := by
  obtain ⟨back, hcourse, -⟩ := hlasts.split
  have hfits := hcharts.bottom_le_iff hheight hrow hcarries hlasts hcourse
  refine ⟨_, _, hcharts.lifeline?_eq hdistinct hname, hcourse, ?_, hfits, fun hlow hsignals => ?_⟩
  · have hline : top ≤ (grid.begun { y := top } activity).line :=
      (Grid.settled_start top).line_le_foldl hheight _
    rw [Grid.barOf_top]
    simpa only [headerGap, sub_add_cancel] using hline
  · refine hfits.2 (.inr (or_iff_not_imp_left.2 fun hsignal => ?_))
    have hnone : (Event.activation activity.name true :: (activity.during ++ back)).filterMap
        Event.signal? = [] :=
      Event.filterMap_signal?_eq_nil_iff.2 (by simpa using hsignal)
    obtain ⟨row, hlast⟩ := hcharts.exists_lastRow? hcourse hnone hsignals
    linarith [le_slack hlast grid.spacing.rowHeight, Event.borders_nonneg (activity.during ++ back)]

end Charts

/-- The layout of every text is a chart of the events of its diagram. -/
theorem ofText_plotted (measure : String → Size ℚ) (spacing : Spacing ℚ) (text : String) :
    ∃ diagram problems layout columns top bottom,
      Diagram.ofText text = .ok (diagram, problems) ∧ diagram.WellFormed ∧
        Columns.ofDiagram measure spacing diagram = .ok columns ∧
        columns.Ordered diagram.participants.length ∧
        columns.Roomy measure spacing.padding (fragmentPad * ofCount diagram.content.body.depth)
          diagram ∧
        ofDiagram measure spacing diagram = .ok layout ∧
        layout.Charts ⟨diagram.participants, columns, spacing, measure⟩ top
          diagram.content.body.events bottom := by
  have hformed := Diagram.foldl_after_ofText_wellFormed text
  obtain ⟨columns, hcolumns, hordered, hroomy⟩ :=
    Columns.ofDiagram_eq_ok measure spacing (Diagram.signals_listed hformed.refers)
  obtain ⟨layout, hlayout⟩ := ofDiagram_of_listed measure spacing hformed.refers
  obtain ⟨top, bottom, hcharts⟩ := ofDiagram_charts hcolumns hlayout
  exact ⟨_, _, layout, columns, top, bottom, Diagram.ofText_eq_ok text, hformed, hcolumns, hordered,
    hroomy, hlayout, hcharts⟩

/-- Its rows carry the signals and their labels, if no height is negative. -/
theorem ofText_charted {measure : String → Size ℚ} (hheight : ∀ text, 0 ≤ (measure text).height)
    (spacing : Spacing ℚ) (text : String) :
    ∃ diagram problems layout columns top bottom,
      let grid : Grid ℚ := ⟨diagram.participants, columns, spacing, measure⟩
      Diagram.ofText text = .ok (diagram, problems) ∧ diagram.WellFormed ∧
        ofDiagram measure spacing diagram = .ok layout ∧
        layout.Charts grid top diagram.content.body.events bottom ∧
        ∀ row ∈ layout.signals, grid.Carries row := by
  obtain ⟨diagram, problems, layout, columns, top, bottom, hdiagram, hformed, hcolumns, hordered, -,
    hlayout, hcharts⟩ := ofText_plotted measure spacing text
  obtain ⟨spots, harranged⟩ := arranged_of_columns (Spacing.descends_of_height _ hheight)
    hformed.refers hcolumns hordered hlayout
  exact ⟨diagram, problems, layout, columns, top, bottom, hdiagram, hformed, hlayout, hcharts,
    harranged.carries⟩

/-- What keeps a bar from its lifeline is that it has half a row of its own, for which the lifeline is not
    made longer. -/
theorem ofText_hangsOn {measure : String → Size ℚ} (hheight : ∀ text, 0 ≤ (measure text).height)
    {options : Options ℚ} (hrow : 0 < (Spacing.ofOptions options).rowHeight) (text : String) :
    ∃ diagram problems layout, ∃ bar : Activity → ActivationBar ℚ,
      Diagram.ofText text = .ok (diagram, problems) ∧
      ofDiagram measure (Spacing.ofOptions options) diagram = .ok layout ∧
      layout.activations.Perm ((Activity.inCourse [] diagram.content.body.events).map bar) ∧
      ∀ activity ∈ Activity.inCourse [] diagram.content.body.events,
        layout.Depicts (Spacing.ofOptions options).rowHeight diagram.content.body.events activity
          (bar activity) ∧
        layout.HangsOn (Spacing.ofOptions options).rowHeight diagram.content.body.events activity
          (bar activity) := by
  obtain ⟨diagram, problems, layout, columns, top, bottom, hdiagram, hformed, hlayout, hcharts, hcarries⟩ :=
    ofText_charted hheight (Spacing.ofOptions options) text
  refine ⟨diagram, problems, layout, _, hdiagram, hlayout, hcharts.bars, fun activity hactivity => ?_⟩
  have hlasts := Activity.lasts_of_mem_inCourse hactivity
  have hname : activity.name ∈ diagram.names := hformed.refers _ hlasts.name_mem_named
  exact ⟨hcharts.depicts hformed.distinct hlasts hname,
    hcharts.hangsOn hheight hrow hcarries hformed.distinct hlasts hname⟩

theorem ofText_hangsOn_tall :
    let options : Options ℚ := { padding := some 0, rowHeight := some 100 }
    (∀ text, 0 ≤ (evenSize (7 : ℚ) 60 text).height) ∧ 0 < (Spacing.ofOptions options).rowHeight ∧
      ∃ diagram problems layout, ∃ bar : Activity → ActivationBar ℚ,
        Diagram.ofText "activate A
A -> B: hi
activate B
loop
deactivate B
end
activate B" =
          .ok (diagram, problems) ∧
        ofDiagram (evenSize (7 : ℚ) 60) (Spacing.ofOptions options) diagram = .ok layout ∧
        layout.activations.Perm ((Activity.inCourse [] diagram.content.body.events).map bar) ∧
        ∀ activity ∈ Activity.inCourse [] diagram.content.body.events,
          layout.Depicts (Spacing.ofOptions options).rowHeight diagram.content.body.events activity
            (bar activity) ∧
          layout.HangsOn (Spacing.ofOptions options).rowHeight diagram.content.body.events activity
            (bar activity) := by
  intro options
  have hheight : ∀ text, 0 ≤ (evenSize (7 : ℚ) 60 text).height := fun text => by norm_num [evenSize]
  have hrow : 0 < (Spacing.ofOptions options).rowHeight := by decide +kernel
  exact ⟨hheight, hrow, ofText_hangsOn hheight hrow _⟩

set_option maxRecDepth 4000 in
/-- The bar of an activation in a diagram without signals ends below its lifeline. -/
theorem ofText_hangsOn_signalless :
    ∃ diagram layout bar line,
      Diagram.ofText "activate A
deactivate A" = .ok (diagram, []) ∧
      (∀ text, 0 ≤ (evenSize (7 : ℚ) 15 text).width ∧ 0 ≤ (evenSize (7 : ℚ) 15 text).height) ∧
      0 < (Spacing.ofOptions ({} : Options ℚ)).rowHeight ∧
      ofDiagram (evenSize (7 : ℚ) 15) (Spacing.ofOptions {}) diagram = .ok layout ∧
      layout.activations = [bar] ∧ layout.lifelines = [line] ∧ bar.participant = line.participant ∧
      line.bottom < bar.bottom := by
  let diagram : Diagram :=
    { participants := [⟨"A", "A"⟩]
      content := ⟨"", .activation "A" true (.activation "A" false .empty)⟩ }
  let bar : ActivationBar ℚ := ⟨"A", 65, 80, 100, 10⟩
  let line : Lifeline ℚ := ⟨"A", 70, 70, 90⟩
  have hdiagram : Diagram.ofText "activate A
deactivate A" = .ok (diagram, []) := by
    cbv
  have hplaced : (ofDiagram (evenSize (7 : ℚ) 15) (Spacing.ofOptions {}) diagram).map
      (fun layout => (layout.activations, layout.lifelines)) = .ok ([bar], [line]) := by
    decide +kernel
  obtain ⟨layout, hlayout, hplaced⟩ := map_eq_ok_iff.1 hplaced
  obtain ⟨hactivations, hlifelines⟩ := Prod.mk.inj hplaced
  refine ⟨diagram, layout, bar, line, hdiagram, fun text => ?_, by decide +kernel, hlayout, hactivations,
    hlifelines, rfl, by decide +kernel⟩
  simp only [evenSize, ofCount_eq_cast]
  constructor <;> positivity

end Layout

end SequenceChart
