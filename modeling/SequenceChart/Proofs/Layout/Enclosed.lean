import Mathlib
import SequenceChart.Proofs.Layout.Slack

namespace SequenceChart

open Distance

/-- An activity begins and ends inside another one of its participant. -/
structure Activity.Within (inner outer : Activity) (early late : List Event) : Prop where
  name : inner.name = outer.name
  ended : inner.ended = true
  front : inner.front = outer.front ++ .activation outer.name true :: early
  during : outer.during =
    early ++ .activation inner.name true :: (inner.during ++ .activation inner.name false :: late)

namespace Grid

variable {grid : Grid ℚ} {cursor : Cursor ℚ}

theorem labelGap_le_of_mem_lines (hheight : ∀ text, 0 ≤ (grid.measure text).height) {y : ℚ}
    {course : List Event} {place : Signal × ℚ} (hplace : place ∈ grid.lines y course) :
    y + labelGap ≤ place.2 := by
  induction course generalizing y with
  | nil => cases hplace
  | cons event rest ih =>
    obtain hfirst | hlater := List.mem_append.1 hplace
    · cases event with
      | signal message =>
        have hband : place = (message, y + grid.labelBand message) := List.mem_singleton.1 hfirst
        have hlabel := Columns.signalSize_height_nonneg hheight message
        rw [hband, labelBand_eq]
        linarith
      | _ => cases hfirst
    · have hadvance := advance_nonneg hheight event
      linarith [ih hlater]

/-- A course with a signal has a last one, below the last one in front of it. -/
theorem line_foldl_of_signal (hheight : ∀ text, 0 ≤ (grid.measure text).height)
    (hcursor : Settled cursor) {course : List Event} {signal : Signal}
    (hsignal : .signal signal ∈ course) :
    let after := course.foldl grid.cursorAfter cursor
    after.lastSignal = some after.line ∧ cursor.line < after.line ∧ cursor.y + labelGap ≤ after.line := by
  intro after
  have hmem : signal ∈ (grid.lines cursor.y course).map Prod.fst := by
    rw [map_fst_lines]
    exact List.mem_filterMap.2 ⟨_, hsignal, rfl⟩
  obtain ⟨place, hplace, -⟩ := List.mem_map.1 hmem
  obtain ⟨hlower, last, hlast, hle⟩ := (lines_between hheight hcursor course).2 place hplace
  have hline : after.line = last := by
    rw [Cursor.line, Option.mem_def.1 hlast, Option.getD_some]
  rw [hline]
  exact ⟨hlast, hlower.trans_le hle, (labelGap_le_of_mem_lines hheight hplace).trans hle⟩

theorem line_foldl_of_no_signal {course : List Event} (hcourse : course.filterMap Event.signal? = [])
    {last : ℚ} (hlast : cursor.lastSignal = some last) :
    (course.foldl grid.cursorAfter cursor).line = last := by
  rw [Cursor.line, lastSignal_foldl, lines_eq_nil_iff.2 hcourse, hlast]
  rfl

section Bars

variable {origin : Cursor ℚ} {activity : Activity}

theorem settled_begun (hheight : ∀ text, 0 ≤ (grid.measure text).height) (horigin : Settled origin)
    (activity : Activity) : Settled (grid.begun origin activity) :=
  horigin.foldl hheight _

/-- An activity with a signal in it ends at its last signal. -/
theorem barOf_bottom_of_signal (hheight : ∀ text, 0 ≤ (grid.measure text).height)
    (horigin : Settled origin) (hended : activity.ended = true) {signal : Signal}
    (hsignal : .signal signal ∈ activity.during) :
    (grid.barOf origin activity).bottom = (grid.reached origin activity).line := by
  obtain ⟨hlast, hlower, -⟩ := line_foldl_of_signal hheight (settled_begun hheight horigin activity) hsignal
  rw [barOf_bottom_of_ended hended, barOf_top]
  exact stop_of_lt hlast hlower

/-- An activity without a signal in it has half a row. -/
theorem barOf_bottom_of_no_signal (hended : activity.ended = true)
    (hnone : activity.during.filterMap Event.signal? = []) :
    (grid.barOf origin activity).bottom =
      (grid.barOf origin activity).top + grid.spacing.rowHeight / 2 := by
  rw [barOf_bottom_of_ended hended, barOf_top]
  exact stop_foldl_line hnone _

end Bars

section Within

variable {origin : Cursor ℚ} {inner outer : Activity} {early late : List Event}

theorem begun_of_within (hwithin : inner.Within outer early late) (origin : Cursor ℚ) :
    grid.begun origin inner =
      (early ++ [Event.activation inner.name true]).foldl grid.cursorAfter (grid.begun origin outer) := by
  rw [begun, begun, hwithin.front, ← List.foldl_append]
  simp

theorem reached_of_within (hwithin : inner.Within outer early late) (origin : Cursor ℚ) :
    grid.reached origin outer = (inner.during ++ .activation inner.name false :: late).foldl
      grid.cursorAfter (grid.begun origin inner) := by
  rw [reached, begun_of_within hwithin, hwithin.during, ← List.foldl_append]
  simp

theorem barOf_top_le_of_within (hheight : ∀ text, 0 ≤ (grid.measure text).height)
    (horigin : Settled origin) (hwithin : inner.Within outer early late) :
    (grid.barOf origin outer).top ≤ (grid.barOf origin inner).top := by
  rw [barOf_top, barOf_top, begun_of_within hwithin]
  exact (settled_begun hheight horigin outer).line_le_foldl hheight _

/-- What lies in an activity with a signal in it lies also in the one around it. -/
theorem barOf_bottom_le_of_signal (hheight : ∀ text, 0 ≤ (grid.measure text).height)
    (horigin : Settled origin) (hwithin : inner.Within outer early late) (hended : outer.ended = true)
    {signal : Signal} (hsignal : .signal signal ∈ inner.during) :
    (grid.barOf origin inner).bottom ≤ (grid.barOf origin outer).bottom := by
  have houter : .signal signal ∈ outer.during := by simp [hwithin.during, hsignal]
  have hreached : Settled (grid.reached origin inner) :=
    (settled_begun hheight horigin inner).foldl hheight _
  rw [barOf_bottom_of_signal hheight horigin hwithin.ended hsignal,
    barOf_bottom_of_signal hheight horigin hended houter, reached_of_within hwithin, List.foldl_append]
  exact hreached.line_le_foldl hheight _

/-- A signal behind the inner activity, but still inside the outer one, leaves room for half a row. -/
theorem barOf_bottom_le_of_later (hheight : ∀ text, 0 ≤ (grid.measure text).height)
    (horigin : Settled origin) (hwithin : inner.Within outer early late) (hended : outer.ended = true)
    {signal : Signal} (hsignal : .signal signal ∈ late)
    (hroom : (grid.barOf origin inner).top + grid.spacing.rowHeight / 2 ≤
      (grid.begun origin inner).y + labelGap) :
    (grid.barOf origin inner).bottom ≤ (grid.barOf origin outer).bottom := by
  by_cases hbusy : ∃ own, .signal own ∈ inner.during
  · obtain ⟨own, hown⟩ := hbusy
    exact barOf_bottom_le_of_signal hheight horigin hwithin hended hown
  · have houter : .signal signal ∈ outer.during := by simp [hwithin.during, hsignal]
    have hmem : .signal signal ∈ inner.during ++ .activation inner.name false :: late := by simp [hsignal]
    obtain ⟨-, -, hlow⟩ := line_foldl_of_signal hheight (settled_begun hheight horigin inner) hmem
    rw [barOf_bottom_of_no_signal hwithin.ended (Event.filterMap_signal?_eq_nil_iff.2 hbusy),
      barOf_bottom_of_signal hheight horigin hended houter, reached_of_within hwithin]
    exact hroom.trans hlow

/-- Without a signal in the inner activity or behind it, the outer one ends where the inner one begins if
    there is a signal in front of that, or else has half a row as well. -/
theorem barOf_bottom_le_iff_of_no_signal (hheight : ∀ text, 0 ≤ (grid.measure text).height)
    (hrow : 0 < grid.spacing.rowHeight) (horigin : Settled origin)
    (hwithin : inner.Within outer early late) (hended : outer.ended = true)
    (hnone : inner.during.filterMap Event.signal? = []) (hlate : late.filterMap Event.signal? = []) :
    (grid.barOf origin inner).bottom ≤ (grid.barOf origin outer).bottom ↔
      (¬ ∃ signal, .signal signal ∈ outer.during) ∧
        (grid.barOf origin inner).top = (grid.barOf origin outer).top := by
  rw [barOf_bottom_of_no_signal hwithin.ended hnone]
  by_cases hsignal : ∃ signal, .signal signal ∈ outer.during
  · -- The last signal is in front of the inner activity, and both the end of the outer one and the
    -- beginning of the inner one are there.
    obtain ⟨signal, hmem⟩ := hsignal
    have hearly : .signal signal ∈ early ++ [Event.activation inner.name true] := by
      have hparts := hmem
      have hduring := not_exists.1 (Event.filterMap_signal?_eq_nil_iff.1 hnone) signal
      have hbehind := not_exists.1 (Event.filterMap_signal?_eq_nil_iff.1 hlate) signal
      rw [hwithin.during] at hparts
      simpa [hduring, hbehind] using hparts
    have hlast := (line_foldl_of_signal hheight (settled_begun hheight horigin outer) hearly).1
    rw [← begun_of_within hwithin] at hlast
    have hbehind : (inner.during ++ .activation inner.name false :: late).filterMap Event.signal? = [] := by
      rw [List.filterMap_append, hnone, List.filterMap_cons_none rfl, hlate]
      rfl
    rw [barOf_bottom_of_signal hheight horigin hended hmem, reached_of_within hwithin,
      line_foldl_of_no_signal hbehind hlast, ← barOf_top]
    refine iff_of_false ?_ fun hdone => hdone.1 ⟨signal, hmem⟩
    linarith
  · rw [barOf_bottom_of_no_signal hended (Event.filterMap_signal?_eq_nil_iff.2 hsignal)]
    have hle := barOf_top_le_of_within hheight horigin hwithin
    constructor
    · intro hbottom
      exact ⟨hsignal, by linarith⟩
    · rintro ⟨-, heq⟩
      rw [heq]

end Within

end Grid

namespace Layout

/-- With default spacing, a bar begins not above that of an activity around it. If both are ended, it ends
    not below the other one if there is a signal in it, or if it has room in front of the last one in the
    other one, behind it. Without any signal in the other one they must begin together. -/
structure Encloses (layout : Layout ℚ) (outer inner : Activity) (late : List Event)
    (outerBar innerBar : ActivationBar ℚ) : Prop where
  top : outerBar.top ≤ innerBar.top
  bottom : outer.ended = true →
    (innerBar.bottom ≤ outerBar.bottom ↔
      (∃ signal, .signal signal ∈ inner.during) ∨
      ((∃ signal, .signal signal ∈ late) ∧
        ∃ last ∈ layout.lastLine? (outer.front ++ outer.during), innerBar.top + 20 ≤ last) ∨
      (¬ ∃ signal, .signal signal ∈ outer.during) ∧ innerBar.top = outerBar.top)
  roomy : outer.ended = true → (∃ signal, .signal signal ∈ late) → 14 ≤ layout.slack 40 inner.front →
    innerBar.bottom ≤ outerBar.bottom
  unended : outer.ended = false →
    (innerBar.bottom ≤ outerBar.bottom ↔ innerBar.bottom ≤ layout.height - 60)

section Charts

variable {layout : Layout ℚ} {grid : Grid ℚ} {top bottom : ℚ} {course early late : List Event}
  {inner outer : Activity}

/-- Whether the bar of an activity ends inside that of one that is ended behind it. -/
theorem Charts.bottom_le_bottom_iff (hcharts : layout.Charts grid top course bottom)
    (hheight : ∀ text, 0 ≤ (grid.measure text).height) (hrow : grid.spacing.rowHeight = 40)
    (houter : outer.Lasts course) (hwithin : inner.Within outer early late)
    (hended : outer.ended = true) :
    (grid.barOf { y := top } inner).bottom ≤ (grid.barOf { y := top } outer).bottom ↔
      (∃ signal, .signal signal ∈ inner.during) ∨
      ((∃ signal, .signal signal ∈ late) ∧ ∃ last ∈ layout.lastLine? (outer.front ++ outer.during),
        (grid.barOf { y := top } inner).top + 20 ≤ last) ∨
      (¬ ∃ signal, .signal signal ∈ outer.during) ∧
        (grid.barOf { y := top } inner).top = (grid.barOf { y := top } outer).top := by
  have horigin := Grid.settled_start top
  by_cases hbusy : ∃ signal, .signal signal ∈ inner.during
  · obtain ⟨signal, hsignal⟩ := hbusy
    exact iff_of_true (Grid.barOf_bottom_le_of_signal hheight horigin hwithin hended hsignal)
      (.inl ⟨signal, hsignal⟩)
  have hnone := Event.filterMap_signal?_eq_nil_iff.2 hbusy
  rw [or_iff_right hbusy]
  by_cases hlate : ∃ signal, .signal signal ∈ late
  · obtain ⟨signal, hsignal⟩ := hlate
    have hmem : .signal signal ∈ outer.during := by simp [hwithin.during, hsignal]
    have hlast : (grid.reached { y := top } outer).lastSignal =
        some (grid.reached { y := top } outer).line :=
      (Grid.line_foldl_of_signal hheight (Grid.settled_begun hheight horigin outer) hmem).1
    rw [or_iff_left fun hdone => hdone.1 ⟨signal, hmem⟩, and_iff_right ⟨signal, hsignal⟩,
      Grid.barOf_bottom_of_no_signal hwithin.ended hnone,
      Grid.barOf_bottom_of_signal hheight horigin hended hmem, hcharts.lastLine?_reached houter, hlast,
      hrow]
    simp only [Option.mem_some_iff, exists_eq_left']
    norm_num
  · rw [or_iff_right fun hdone => hlate hdone.1]
    exact Grid.barOf_bottom_le_iff_of_no_signal hheight (by linarith) horigin hwithin hended hnone
      (Event.filterMap_signal?_eq_nil_iff.2 hlate)

theorem Charts.encloses (hcharts : layout.Charts grid top course bottom)
    (hheight : ∀ text, 0 ≤ (grid.measure text).height) (hspacing : grid.spacing = .ofOptions {})
    (hcarries : ∀ row ∈ layout.signals, grid.Carries row) (houter : outer.Lasts course)
    (hinner : inner.Lasts course) (hwithin : inner.Within outer early late) :
    layout.Encloses outer inner late (grid.barOf { y := top } outer) (grid.barOf { y := top } inner) := by
  have hrow : grid.spacing.rowHeight = 40 := by
    rw [hspacing]
    rfl
  have hlower : layout.height = bottom + 40 := by
    rw [hcharts.height, hspacing, add_assoc]
    exact congrArg (bottom + ·) (by decide +kernel)
  have horigin := Grid.settled_start top
  have htop := Grid.barOf_top_le_of_within hheight horigin hwithin
  refine ⟨htop, hcharts.bottom_le_bottom_iff hheight hrow houter hwithin,
    fun hended ⟨signal, hsignal⟩ hroom => ?_, fun hended => ?_⟩
  · have hslack := hcharts.begun_line_add_slack hcarries hinner
    refine Grid.barOf_bottom_le_of_later hheight horigin hwithin hended hsignal ?_
    rw [hrow] at hslack ⊢
    rw [Grid.barOf_top]
    simp only [labelGap]
    linarith
  · have hlt : (grid.barOf { y := top } inner).top < (grid.barOf { y := top } inner).bottom := by
      rw [Grid.barOf_bottom_of_ended hwithin.ended]
      exact Grid.lt_stop (by linarith) _ _
    rw [Grid.barOf_bottom_of_unended hended, hcharts.reached_y houter hended, le_max_iff,
      or_iff_left (htop.trans_lt hlt).not_ge]
    constructor <;> intro hle <;> linarith

end Charts

/-- What keeps a bar from that of an activity around it is again that it has half a row of its own. -/
theorem ofText_encloses {measure : String → Size ℚ} (hheight : ∀ text, 0 ≤ (measure text).height)
    (text : String) :
    ∃ diagram problems layout, ∃ bar : Activity → ActivationBar ℚ,
      Diagram.ofText text = .ok (diagram, problems) ∧
      ofDiagram measure (Spacing.ofOptions {}) diagram = .ok layout ∧
      layout.activations.Perm ((Activity.inCourse [] diagram.content.body.events).map bar) ∧
      (∀ activity ∈ Activity.inCourse [] diagram.content.body.events,
        layout.Depicts 40 diagram.content.body.events activity (bar activity)) ∧
      ∀ outer ∈ Activity.inCourse [] diagram.content.body.events,
        ∀ inner ∈ Activity.inCourse [] diagram.content.body.events, ∀ early late,
          inner.Within outer early late → layout.Encloses outer inner late (bar outer) (bar inner) := by
  obtain ⟨diagram, problems, layout, columns, top, bottom, hdiagram, hformed, hlayout, hcharts, hcarries⟩ :=
    ofText_charted hheight (Spacing.ofOptions {}) text
  refine ⟨diagram, problems, layout, _, hdiagram, hlayout, hcharts.bars, fun activity hactivity => ?_,
    fun outer houter inner hinner early late hwithin => ?_⟩
  · have hlasts := Activity.lasts_of_mem_inCourse hactivity
    exact hcharts.depicts hformed.distinct hlasts (hformed.refers _ hlasts.name_mem_named)
  · exact hcharts.encloses hheight rfl hcarries (Activity.lasts_of_mem_inCourse houter)
      (Activity.lasts_of_mem_inCourse hinner) hwithin

theorem ofText_encloses_twice :
    (∀ text, 0 ≤ (evenSize (7 : ℚ) 15 text).height) ∧
      ∃ diagram problems layout, ∃ bar : Activity → ActivationBar ℚ,
        Diagram.ofText ("activate B
A -> B
activate B
loop
activate B
B -> A: hi
deactivate B
end
" ++
          "deactivate B
B -> A
deactivate B") = .ok (diagram, problems) ∧
        ofDiagram (evenSize (7 : ℚ) 15) (Spacing.ofOptions {}) diagram = .ok layout ∧
        layout.activations.Perm ((Activity.inCourse [] diagram.content.body.events).map bar) ∧
        (∀ activity ∈ Activity.inCourse [] diagram.content.body.events,
          layout.Depicts 40 diagram.content.body.events activity (bar activity)) ∧
        ∀ outer ∈ Activity.inCourse [] diagram.content.body.events,
          ∀ inner ∈ Activity.inCourse [] diagram.content.body.events, ∀ early late,
            inner.Within outer early late → layout.Encloses outer inner late (bar outer) (bar inner) := by
  have hheight : ∀ text, 0 ≤ (evenSize (7 : ℚ) 15 text).height := fun text => by norm_num [evenSize]
  exact ⟨hheight, ofText_encloses hheight _⟩

set_option maxRecDepth 4000 in
/-- The bar of an activation that begins at the last signal of the one around it ends below that. -/
theorem ofText_encloses_last :
    ∃ diagram layout outer inner early outerBar innerBar,
      Diagram.ofText "A -> B\nactivate B\nB -> A\nactivate B\ndeactivate B\ndeactivate B" =
        .ok (diagram, []) ∧
      (∀ text, 0 ≤ (evenSize (7 : ℚ) 15 text).width ∧ 0 ≤ (evenSize (7 : ℚ) 15 text).height) ∧
      ofDiagram (evenSize (7 : ℚ) 15) (Spacing.ofOptions {}) diagram = .ok layout ∧
      Activity.inCourse [] diagram.content.body.events = [outer, inner] ∧ outer.ended = true ∧
      inner.Within outer early [] ∧ layout.activations = [innerBar, outerBar] ∧
      layout.Depicts 40 diagram.content.body.events outer outerBar ∧
      layout.Depicts 40 diagram.content.body.events inner innerBar ∧
      outerBar.bottom < innerBar.bottom := by
  let first : Event := .signal ⟨"A", "B", "", .solid, true⟩
  let second : Event := .signal ⟨"B", "A", "", .solid, true⟩
  let starts : Event := .activation "B" true
  let ends : Event := .activation "B" false
  let diagram : Diagram :=
    { participants := [⟨"A", "A"⟩, ⟨"B", "B"⟩]
      content := ⟨"", .signal ⟨"A", "B", "", .solid, true⟩ (.activation "B" true
        (.signal ⟨"B", "A", "", .solid, true⟩ (.activation "B" true (.activation "B" false
          (.activation "B" false .empty)))))⟩ }
  let outer : Activity := ⟨"B", [first], [second, starts, ends], true⟩
  let inner : Activity := ⟨"B", [first, starts, second], [], true⟩
  let outerBar : ActivationBar ℚ := ⟨"B", 205, 86, 126, 10⟩
  let innerBar : ActivationBar ℚ := ⟨"B", 210, 126, 146, 10⟩
  let rows : List (SignalRow ℚ) := [⟨0, "A", "B", "", .solid, true, 70, 210, 86, false, 0, 0⟩,
    ⟨1, "B", "A", "", .solid, true, 210, 70, 126, false, 0, 0⟩]
  let line : Lifeline ℚ := ⟨"B", 210, 70, 170⟩
  have hdiagram : Diagram.ofText "A -> B\nactivate B\nB -> A\nactivate B\ndeactivate B\ndeactivate B" =
      .ok (diagram, []) := by
    cbv
  have hplaced : (ofDiagram (evenSize (7 : ℚ) 15) (Spacing.ofOptions {}) diagram).map
      (fun layout => (layout.signals, layout.activations, layout.lifeline? "B")) =
        .ok (rows, [innerBar, outerBar], some line) := by
    cbv
  obtain ⟨layout, hlayout, hplaced⟩ := map_eq_ok_iff.1 hplaced
  obtain ⟨hsignals, hplaced⟩ := Prod.mk.inj hplaced
  obtain ⟨hactivations, hline⟩ := Prod.mk.inj hplaced
  have hactivities : Activity.inCourse [] diagram.content.body.events = [outer, inner] := by
    cbv
  have hlasts {activity : Activity} (hactivity : activity ∈ [outer, inner]) :
      activity.Lasts diagram.content.body.events :=
    Activity.lasts_of_mem_inCourse (hactivities ▸ hactivity)
  refine ⟨diagram, layout, outer, inner, [second], outerBar, innerBar, hdiagram, fun text => ?_, hlayout,
    hactivities, rfl, ⟨rfl, rfl, rfl, rfl⟩, hactivations, ⟨hlasts (by simp), rfl, rfl, line, hline, ?_⟩,
    ⟨hlasts (by simp), rfl, rfl, line, hline, ?_⟩, by decide +kernel⟩
  · simp only [evenSize, ofCount_eq_cast]
    constructor <;> positivity
  · rw [lastLine?, lastLine?, lastRow?, lastRow?, hsignals]
    decide +kernel
  · rw [lastLine?, lastLine?, lastRow?, lastRow?, hsignals]
    decide +kernel

end Layout

end SequenceChart
