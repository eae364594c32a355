import Mathlib.Data.List.Induction
import Mathlib.Tactic.Ring
import SequenceChart.Font
import SequenceChart.Proofs.Layout.Bars
import SequenceChart.Proofs.Layout.Enumerated

namespace SequenceChart

open Distance

namespace Grid

variable {grid : Grid ℚ}

/-- The last signal that a course of events leads to is its own last one, or was there in front of it. -/
theorem lastSignal_foldl (cursor : Cursor ℚ) (course : List Event) :
    (course.foldl grid.cursorAfter cursor).lastSignal =
      ((grid.lines cursor.y course).getLast?.map Prod.snd).or cursor.lastSignal := by
  induction course using List.reverseRecOn with
  | nil => rfl
  | append_singleton front event ih =>
    rw [List.foldl_concat, lines_append, ← foldl_cursorAfter_y]
    cases event with
    | signal message => simp [cursorAfter, lines, Event.signal?]
    | _ => simpa [cursorAfter, lines, Event.signal?] using ih

/-- Events without a signal among them only lead down by their borders. -/
theorem descent_of_filterMap_eq_nil {course : List Event} (hcourse : course.filterMap Event.signal? = []) :
    grid.descent course = Event.borders course := by
  rw [descent, Event.borders, List.map_congr_left fun event hevent => ?_]
  exact advance_eq_border (List.filterMap_eq_nil_iff.1 hcourse event hevent)

theorem begun_line (origin : Cursor ℚ) (activity : Activity) :
    (grid.begun origin activity).line = (activity.front.foldl grid.cursorAfter origin).line := by
  rw [begun, List.foldl_concat]
  rfl

theorem stop_eq (grid : Grid ℚ) (cursor : Cursor ℚ) (start : ℚ) : grid.stop cursor start =
    (cursor.lastSignal.filter (start < ·)).getD (start + grid.spacing.rowHeight / 2) := by
  rw [stop]
  cases cursor.lastSignal with
  | none => rfl
  | some last => by_cases hlower : start < last <;> simp [Option.filter_some, hlower]

end Grid

namespace Layout

/-- The lifeline of a participant. -/
def lifeline? (layout : Layout ℚ) (name : String) : Option (Lifeline ℚ) :=
  layout.lifelines.find? (·.participant = name)

/-- The row of the last of the signals in a first part of a course. -/
def lastRow? (layout : Layout ℚ) (front : List Event) : Option (SignalRow ℚ) :=
  (layout.signals.take (front.filterMap Event.signal?).length).getLast?

/-- Where the last of the signals in a first part of a course stands. -/
def lastLine? (layout : Layout ℚ) (front : List Event) : Option ℚ :=
  (layout.lastRow? front).map SignalRow.y

theorem lastRow?_congr (layout : Layout ℚ) {front other : List Event}
    (hsame : front.filterMap Event.signal? = other.filterMap Event.signal?) :
    layout.lastRow? front = layout.lastRow? other := by
  rw [lastRow?, hsame, lastRow?]

/-- Activations are no signals. -/
theorem lastLine?_activation (layout : Layout ℚ) (front during : List Event) (name : String)
    (starts : Bool) :
    layout.lastLine? (front ++ .activation name starts :: during) = layout.lastLine? (front ++ during) := by
  refine congrArg (Option.map SignalRow.y) (layout.lastRow?_congr ?_)
  rw [List.filterMap_append, List.filterMap_append, List.filterMap_cons_none rfl]

/-- The bar of an activity stands on the lifeline of its participant, half its width further to the right
    for each activation that is open in front of it. It begins at the last signal in front of it, or else
    at the height of its row: below the head of the lifeline and the borders of fragments so far. If it is
    ended, it ends at the last signal so far, or half a row below its beginning if there is none below
    that. Any other one ends half a row above the end of the rows if it begins above that. -/
structure Depicts (layout : Layout ℚ) (rowHeight : ℚ) (course : List Event) (activity : Activity)
    (bar : ActivationBar ℚ) : Prop where
  lasts : activity.Lasts course
  participant : bar.participant = activity.name
  width : bar.width = 10
  placed : ∃ line, layout.lifeline? activity.name = some line ∧
    bar.x = line.x - 5 + 5 * activity.level ∧
    bar.top = (layout.lastLine? activity.front).getD (line.top + 10 + Event.borders activity.front) ∧
    bar.bottom =
      if activity.ended then
        ((layout.lastLine? (activity.front ++ activity.during)).filter (bar.top < ·)).getD
          (bar.top + rowHeight / 2)
      else max (line.bottom - 10 - rowHeight / 2) bar.top

section Charts

variable {layout : Layout ℚ} {grid : Grid ℚ} {top bottom : ℚ} {course : List Event}

theorem Charts.lastLine?_eq (hcharts : layout.Charts grid top course bottom) {front back : List Event}
    (hcourse : course = front ++ back) :
    layout.lastLine? front = (front.foldl grid.cursorAfter { y := top }).lastSignal := by
  have hlines := hcharts.runs.lines
  rw [hcourse, Grid.lines_append] at hlines
  obtain ⟨above, below, hrows, habove, -⟩ := List.map_eq_append_iff.1 hlines
  have hcount : (front.filterMap Event.signal?).length = above.length := by
    rw [← @Grid.map_fst_lines grid top, ← habove]
    simp
  rw [lastLine?, lastRow?, hrows, hcount, List.take_left, Grid.lastSignal_foldl, ← habove,
    List.getLast?_map]
  simp [Function.comp_def]

theorem Charts.line_eq (hcharts : layout.Charts grid top course bottom) {front back : List Event}
    (hcourse : course = front ++ back) : (front.foldl grid.cursorAfter { y := top }).line =
      (layout.lastLine? front).getD (top + Event.borders front) := by
  rw [Cursor.line, ← hcharts.lastLine?_eq hcourse]
  cases hlast : layout.lastLine? front with
  | some last => rfl
  | none =>
    rw [hcharts.lastLine?_eq hcourse, Grid.lastSignal_foldl, Option.or_none, Option.map_eq_none_iff,
      List.getLast?_eq_none_iff, Grid.lines_eq_nil_iff] at hlast
    rw [Grid.foldl_cursorAfter_y, Grid.descent_of_filterMap_eq_nil hlast]

theorem Charts.lifeline?_eq (hcharts : layout.Charts grid top course bottom)
    (hdistinct : (grid.participants.map Participant.name).Nodup) {name : String}
    (hname : name ∈ grid.participants.map Participant.name) : layout.lifeline? name =
      some ⟨name, grid.center (columnIn grid.participants name), top - headerGap, bottom + footerGap⟩ := by
  rw [lifeline?, hcharts.lifelines]
  exact find?_lifelines hdistinct (columnOf_eq_ok hname) grid.center _ _

theorem Charts.lastLine?_reached (hcharts : layout.Charts grid top course bottom) {activity : Activity}
    (hlasts : activity.Lasts course) : layout.lastLine? (activity.front ++ activity.during) =
      (grid.reached { y := top } activity).lastSignal := by
  obtain ⟨back, hcourse, -⟩ := hlasts.split
  have hsplit : course =
      (activity.front ++ .activation activity.name true :: activity.during) ++ back := by
    simp [hcourse]
  rw [← lastLine?_activation, hcharts.lastLine?_eq hsplit, List.append_cons, List.foldl_append]
  rfl

/-- The bar that an activity has in a chart depicts it. -/
theorem Charts.depicts (hcharts : layout.Charts grid top course bottom)
    (hdistinct : (grid.participants.map Participant.name).Nodup) {activity : Activity}
    (hlasts : activity.Lasts course) (hname : activity.name ∈ grid.participants.map Participant.name) :
    layout.Depicts grid.spacing.rowHeight course activity (grid.barOf { y := top } activity) := by
  obtain ⟨back, hcourse, -⟩ := hlasts.split
  refine ⟨hlasts, rfl, rfl, _, hcharts.lifeline?_eq hdistinct hname, ?_, ?_, ?_⟩
  · simp only [Grid.barOf, Grid.barAt, barWidth, ofCount_eq_cast]
    ring
  · rw [Grid.barOf_top, Grid.begun_line, hcharts.line_eq hcourse]
    simp only [headerGap, sub_add_cancel]
  · cases hended : activity.ended with
    | true =>
      rw [if_pos rfl, Grid.barOf_bottom_of_ended hended, hcharts.lastLine?_reached hlasts, Grid.stop_eq]
    | false =>
      rw [if_neg (by decide), Grid.barOf_bottom_of_unended hended, hcharts.reached_y hlasts hended]
      simp only [footerGap, add_sub_cancel_right]

end Charts

/-- Every activation has a bar of its own, and there are no other bars. -/
theorem ofDiagram_depicted (measure : String → Size ℚ) (options : Options ℚ) {diagram : Diagram}
    (hdistinct : diagram.names.Nodup)
    (hrefers : ∀ name ∈ diagram.content.body.named, name ∈ diagram.names) :
    ∃ (layout : Layout ℚ) (bar : Activity → ActivationBar ℚ),
      ofDiagram measure (Spacing.ofOptions options) diagram = .ok layout ∧
      layout.signals.map SignalRow.message = diagram.content.body.events.filterMap Event.signal? ∧
      layout.activations.Perm ((Activity.inCourse [] diagram.content.body.events).map bar) ∧
      ∀ activity ∈ Activity.inCourse [] diagram.content.body.events,
        layout.Depicts (Spacing.ofOptions options).rowHeight diagram.content.body.events activity
          (bar activity) := by
  obtain ⟨layout, hlayout⟩ := ofDiagram_of_listed measure (Spacing.ofOptions options) hrefers
  obtain ⟨columns, hcolumns, -⟩ := ofDiagram_presents hlayout
  obtain ⟨top, bottom, hcharts⟩ := ofDiagram_charts hcolumns hlayout
  refine ⟨layout, _, hlayout, hcharts.messages, hcharts.bars, fun activity hactivity => ?_⟩
  have hlasts := Activity.lasts_of_mem_inCourse hactivity
  exact hcharts.depicts hdistinct hlasts (hrefers _ hlasts.name_mem_named)

theorem ofDiagram_depicted_interleaved :
    let inner : Operands := .cons "" (.signal ⟨"A", "B", "hi", .solid, true⟩
      (.activation "B" true (.activation "B" true (.activation "A" false .empty)))) .none
    let diagram : Diagram :=
      { participants := [⟨"A", "A"⟩, ⟨"B", "Bob"⟩]
        content := ⟨"", .activation "A" true (.fragment "loop" inner (.activation "B" false
          (.activation "A" false (.signal ⟨"B", "A", "", .dashed, true⟩ .empty))))⟩ }
    let options : Options ℚ := { padding := some (-3), rowHeight := some 7 }
    diagram.names.Nodup ∧ (∀ name ∈ diagram.content.body.named, name ∈ diagram.names) ∧
      ∃ (layout : Layout ℚ) (bar : Activity → ActivationBar ℚ),
        ofDiagram (evenSize (-2) (-5)) (Spacing.ofOptions options) diagram = .ok layout ∧
        layout.signals.map SignalRow.message = diagram.content.body.events.filterMap Event.signal? ∧
        layout.activations.Perm ((Activity.inCourse [] diagram.content.body.events).map bar) ∧
        ∀ activity ∈ Activity.inCourse [] diagram.content.body.events,
          layout.Depicts (Spacing.ofOptions options).rowHeight diagram.content.body.events activity
            (bar activity) := by
  intro inner diagram options
  have hdistinct : diagram.names.Nodup := by decide
  have hrefers : ∀ name ∈ diagram.content.body.named, name ∈ diagram.names := by decide
  exact ⟨hdistinct, hrefers, ofDiagram_depicted _ options hdistinct hrefers⟩

end Layout

end SequenceChart
