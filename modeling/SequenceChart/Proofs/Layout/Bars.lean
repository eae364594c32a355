import Mathlib.Data.List.Induction
import SequenceChart.Proofs.Diagram.Activities
import SequenceChart.Proofs.Layout.Composed
import SequenceChart.Proofs.Layout.Tracked

namespace SequenceChart

open Distance

/-- Bars are the same up to their order if those of every participant are. -/
theorem ActivationBar.perm_of_filter {bars others : List (ActivationBar ℚ)}
    (hbars : ∀ name, (bars.filter (·.participant = name)).Perm (others.filter (·.participant = name))) :
    bars.Perm others := by
  rw [List.perm_iff_count]
  intro bar
  have hcount := List.perm_iff_count.1 (hbars bar.participant) bar
  rwa [List.count_filter (by simp), List.count_filter (by simp)] at hcount

namespace Grid

variable {grid : Grid ℚ}

/-- Where an activation that began at a height has its lower end if it lasts until here, to its own end or
    to that of the diagram. -/
def finish (grid : Grid ℚ) (reached : Cursor ℚ) (ended : Bool) (start : ℚ) : ℚ × ℚ :=
  if ended then (start, grid.stop reached start) else grid.openSpan reached.y start

/-- How far down rows that begin at a cursor have been placed when an activity has begun. -/
def begun (grid : Grid ℚ) (origin : Cursor ℚ) (activity : Activity) : Cursor ℚ :=
  (activity.front ++ [Event.activation activity.name true]).foldl grid.cursorAfter origin

/-- How far down they have been placed when it ends. -/
def reached (grid : Grid ℚ) (origin : Cursor ℚ) (activity : Activity) : Cursor ℚ :=
  activity.during.foldl grid.cursorAfter (grid.begun origin activity)

/-- From where to where an activity extends in them. -/
def extent (grid : Grid ℚ) (origin : Cursor ℚ) (activity : Activity) : ℚ × ℚ :=
  grid.finish (grid.reached origin activity) activity.ended (grid.begun origin activity).line

/-- The bar of an activity in them. -/
def barOf (grid : Grid ℚ) (origin : Cursor ℚ) (activity : Activity) : ActivationBar ℚ :=
  grid.barAt activity.name activity.level (grid.extent origin activity)

section Ends

variable {origin : Cursor ℚ} {activity : Activity}

theorem barOf_top (origin : Cursor ℚ) (activity : Activity) :
    (grid.barOf origin activity).top = (grid.begun origin activity).line := by
  cases hended : activity.ended <;> simp [barOf, barAt, extent, finish, openSpan, hended]

theorem barOf_bottom_of_ended (hended : activity.ended = true) :
    (grid.barOf origin activity).bottom =
      grid.stop (grid.reached origin activity) (grid.barOf origin activity).top := by
  rw [barOf_top, barOf, barAt, extent, finish, if_pos hended]

theorem barOf_bottom_of_unended (hended : activity.ended = false) :
    (grid.barOf origin activity).bottom =
      max ((grid.reached origin activity).y - grid.spacing.rowHeight / 2)
        (grid.barOf origin activity).top := by
  rw [barOf_top, barOf, barAt, extent, finish, hended, if_neg (by decide), openSpan, larger_eq_max]

end Ends

/-- The bar of an activation that began at a height, given the events from here on and how many others of
    its participant are open inside and around it. -/
def pending (grid : Grid ℚ) (name : String) (cursor : Cursor ℚ) (rest : List Event)
    (depth level : Nat) (start : ℚ) : ActivationBar ℚ :=
  let during := Nesting.untilClosed (Event.nesting name) depth rest
  grid.barAt name level (grid.finish (during.1.foldl grid.cursorAfter cursor) during.2 start)

/-- The bars of the open activations of a participant, the innermost first. -/
def pendings (grid : Grid ℚ) (name : String) (cursor : Cursor ℚ) (rest : List Event) :
    Nat → List ℚ → List (ActivationBar ℚ)
  | _, [] => []
  | depth, start :: outer =>
    grid.pending name cursor rest depth outer.length start ::
      pendings grid name cursor rest (depth + 1) outer

theorem pendings_congr {name : String} {cursor other : Cursor ℚ} {rest later : List Event}
    {before after : Nat} (hpending : ∀ depth level start,
      grid.pending name cursor rest (before + depth) level start =
        grid.pending name other later (after + depth) level start) (starts : List ℚ) :
    grid.pendings name cursor rest before starts = grid.pendings name other later after starts := by
  induction starts generalizing before after with
  | nil => rfl
  | cons start outer ih =>
    have hfirst : grid.pending name cursor rest before outer.length start =
        grid.pending name other later after outer.length start := hpending 0 outer.length start
    rw [pendings, pendings, hfirst, ih fun depth level inner => ?_]
    rw [Nat.add_assoc, Nat.add_assoc]
    exact hpending (1 + depth) level inner

section Pending

variable {name : String} {event : Event}

theorem pendings_neutral (hevent : event.nesting name = .neutral) (cursor : Cursor ℚ)
    (rest : List Event) (starts : List ℚ) :
    grid.pendings name cursor (event :: rest) 0 starts =
      grid.pendings name (grid.cursorAfter cursor event) rest 0 starts := by
  apply pendings_congr
  intro depth level start
  simp [pending, Nesting.untilClosed, hevent]

/-- What begins lies inside what is open. -/
theorem pendings_opening (hevent : event.nesting name = .opening) (cursor : Cursor ℚ)
    (rest : List Event) (starts : List ℚ) :
    grid.pendings name cursor (event :: rest) 0 starts =
      grid.pendings name (grid.cursorAfter cursor event) rest 1 starts := by
  apply pendings_congr
  intro depth level start
  simp [pending, Nesting.untilClosed, hevent, Nat.add_comm]

/-- What ends is the innermost thing that is open. -/
theorem pendings_closing (hevent : event.nesting name = .closing) (cursor : Cursor ℚ)
    (rest : List Event) (start : ℚ) (outer : List ℚ) :
    grid.pendings name cursor (event :: rest) 0 (start :: outer) =
      grid.barAt name outer.length (start, grid.stop cursor start) ::
        grid.pendings name (grid.cursorAfter cursor event) rest 0 outer := by
  have hfirst : grid.pending name cursor (event :: rest) 0 outer.length start =
      grid.barAt name outer.length (start, grid.stop cursor start) := by
    simp [pending, Nesting.untilClosed, hevent, finish]
  rw [pendings, hfirst]
  congr 1
  apply pendings_congr
  intro depth level inner
  rw [Nat.add_comm 1 depth]
  simp [pending, Nesting.untilClosed, hevent]

end Pending

theorem pendings_nil (name : String) (cursor : Cursor ℚ) (depth : Nat) (starts : List ℚ) :
    grid.pendings name cursor [] depth starts = grid.openBars name cursor.y starts := by
  induction starts generalizing depth with
  | nil => rfl
  | cons start outer ih => exact congrArg (_ :: ·) (ih (depth + 1))

/-- The starts of the open activations of a participant are a stack. -/
theorem opened_cursorAfter (grid : Grid ℚ) (name : String) (cursor : Cursor ℚ) (event : Event) :
    (grid.cursorAfter cursor event).opened.get name =
      Nesting.step (Event.nesting name) (fun _ => cursor.line) (cursor.opened.get name) event := by
  cases event with
  | activation other starts =>
    by_cases hother : other = name
    · subst hother
      rw [cursorAfter, OpenBars.get_set_self]
      cases starts <;> simp [Nesting.step, Event.nesting]
    · rw [cursorAfter, OpenBars.get_set_of_ne (Ne.symm hother)]
      simp [Nesting.step, Event.nesting, hother]
  | _ => rfl

/-- As many activations of a participant are open as a course of events has left open. -/
theorem length_opened {origin : Cursor ℚ} (horigin : origin.opened = []) (name : String)
    (course : List Event) : ((course.foldl grid.cursorAfter origin).opened.get name).length =
      (Nesting.leftOpen (Event.nesting name) course).length := by
  induction course using List.reverseRecOn with
  | nil =>
    rw [List.foldl_nil, horigin]
    rfl
  | append_singleton front event ih =>
    rw [List.foldl_concat, opened_cursorAfter, Nesting.length_leftOpen_concat, ← ih, Nesting.step]
    cases event.nesting name <;> simp

/-- The only bar of a participant that an event places is that of the innermost activation that it ends. -/
theorem filter_barsAt (grid : Grid ℚ) (name : String) (cursor : Cursor ℚ) (event : Event) :
    (grid.barsAt cursor event).filter (·.participant = name) =
      if event = .activation name false then
        match cursor.opened.get name with
        | [] => []
        | start :: outer => [grid.barAt name outer.length (start, grid.stop cursor start)]
      else [] := by
  cases event with
  | activation other starts =>
    cases starts with
    | true => simp [barsAt]
    | false =>
      rw [barsAt]
      by_cases hother : other = name
      · subst hother
        cases cursor.opened.get other <;> simp [barAt]
      · cases cursor.opened.get other <;> simp [barAt, hother]
  | _ => simp [barsAt]

/-- The bars of a participant that a course of events places, and those of what it leaves open, are those
    of the activities that were open in front of it or begin in it. -/
theorem filter_barsIn_perm (name : String) {origin cursor after : Cursor ℚ} {front rest : List Event}
    (horigin : origin.opened = []) (hcursor : front.foldl grid.cursorAfter origin = cursor)
    (hafter : rest.foldl grid.cursorAfter cursor = after) :
    ((grid.barsIn cursor rest).filter (·.participant = name) ++
        grid.openBars name after.y (after.opened.get name)).Perm
      (grid.pendings name cursor rest 0 (cursor.opened.get name) ++
        (Activity.ofCourse name front rest).map (grid.barOf origin)) := by
  -- The induction is on the events still to come, over any events in front of them: those in front have
  -- left activations open, of which the ones to come end some.
  induction rest generalizing front cursor with
  | nil =>
    obtain rfl : cursor = after := hafter
    rw [pendings_nil]
    exact (List.append_nil _).symm ▸ .refl _
  | cons event rest ih =>
    have hnext : (front ++ [event]).foldl grid.cursorAfter origin = grid.cursorAfter cursor event := by
      rw [List.foldl_concat, hcursor]
    have hlater := ih hnext hafter
    rw [opened_cursorAfter] at hlater
    rw [barsIn, List.filter_append, filter_barsAt, Activity.ofCourse]
    cases hevent : event.nesting name with
    | neutral =>
      have hstarts : event ≠ .activation name true := fun heq => by
        simp [heq, Event.nesting] at hevent
      have hends : event ≠ .activation name false := fun heq => by
        simp [heq, Event.nesting] at hevent
      simp only [Nesting.step, hevent] at hlater
      rw [if_neg hends, if_neg hstarts, pendings_neutral hevent]
      exact hlater
    | opening =>
      obtain rfl := Event.nesting_eq_opening.1 hevent
      have hlevel : (Activity.between name front rest).level = (cursor.opened.get name).length := by
        rw [← hcursor, length_opened horigin]
        rfl
      have hbar : grid.pending name (grid.cursorAfter cursor (.activation name true)) rest 0
          (cursor.opened.get name).length cursor.line = grid.barOf origin (.between name front rest) := by
        rw [barOf, hlevel, extent, reached, begun, Activity.between, List.foldl_concat, hcursor]
        rfl
      simp only [Nesting.step, hevent, pendings, List.cons_append] at hlater
      rw [if_neg (by simp), if_pos rfl, pendings_opening hevent, List.singleton_append, List.map_cons,
        ← hbar]
      exact hlater.trans List.perm_middle.symm
    | closing =>
      obtain rfl := Event.nesting_eq_closing.1 hevent
      simp only [Nesting.step, hevent] at hlater
      rw [if_pos rfl, if_neg (by simp)]
      cases hown : cursor.opened.get name with
      | nil => simpa [hown, pendings] using hlater
      | cons start outer =>
        rw [hown, List.tail_cons] at hlater
        rw [pendings_closing hevent]
        exact hlater.cons _

/-- The bars placed for a body, and those of what it leaves open, are those of the activities of its
    participants, one for each. -/
theorem bars_perm {body : Body} {origin after : Cursor ℚ} {rows : Rows ℚ}
    {unclosed : List (ActivationBar ℚ)} (horigin : origin.opened = [])
    (hbody : grid.placeBody 0 body origin = .ok (rows, after))
    (hunclosed : grid.closeAllBars after.y after.opened = .ok unclosed) :
    (rows.bars ++ unclosed).Perm ((Activity.inCourse [] body.events).map (grid.barOf origin)) := by
  obtain ⟨hafter, hbars⟩ := placeBody_tracks 0 body hbody
  have hnodup : (after.opened.map Prod.fst).Nodup := by
    rw [hafter]
    apply nodup_foldl
    simp [horigin]
  refine ActivationBar.perm_of_filter fun name => ?_
  have hperm := filter_barsIn_perm name horigin
    (List.foldl_nil : [].foldl grid.cursorAfter origin = origin) hafter.symm
  have hnone : origin.opened.get name = [] := by
    rw [horigin]
    rfl
  rw [hnone, pendings, List.nil_append, ← Activity.filter_inCourse] at hperm
  rw [hbars, List.filter_append, filter_closeAllBars hnodup hunclosed, List.filter_map]
  exact ((List.reverse_perm _).append_left _).trans hperm

end Grid

namespace Layout

/-- The rows, bars and lifelines of a layout are those of a course of events that is placed in a grid from
    one height down to another. -/
structure Charts (layout : Layout ℚ) (grid : Grid ℚ) (top : ℚ) (course : List Event) (bottom : ℚ) :
    Prop where
  runs : grid.Runs top course layout.signals bottom
  bars : layout.activations.Perm ((Activity.inCourse [] course).map (grid.barOf { y := top }))
  lifelines : layout.lifelines = grid.participants.mapIdx fun i participant =>
    ⟨participant.name, grid.center i, top - headerGap, bottom + footerGap⟩
  height : layout.height = bottom + footerGap + grid.spacing.padding

theorem ofDiagram_charts {measure : String → Size ℚ} {spacing : Spacing ℚ} {diagram : Diagram}
    {columns : Columns ℚ} (hcolumns : Columns.ofDiagram measure spacing diagram = .ok columns)
    {layout : Layout ℚ} (hlayout : ofDiagram measure spacing diagram = .ok layout) :
    ∃ top bottom, layout.Charts ⟨diagram.participants, columns, spacing, measure⟩ top
      diagram.content.body.events bottom := by
  obtain ⟨hparticipants, hempty, rfl⟩ | ⟨rows, after, unclosed, hbody, hunclosed, rfl⟩ :=
    ofDiagram_assembled hcolumns hlayout
  · -- There is nothing to place, and any height will do.
    let y := (ofTitle spacing (diagram.heading measure)).height - spacing.padding - footerGap
    refine ⟨y, y, ?_, ?_, ?_, by simp [y]⟩
    · rw [ofTitle_signals, hempty]
      exact .nil y
    · rw [hempty]
      cases diagram.heading measure <;> exact .nil
    · simp only [hparticipants, List.mapIdx_nil]
      cases diagram.heading measure <;> rfl
  · refine ⟨_, after.y, Grid.placeBody_runs 0 _ hbody, Grid.bars_perm rfl hbody hunclosed, ?_, rfl⟩
    simp [assembled]

variable {layout : Layout ℚ} {grid : Grid ℚ} {top bottom : ℚ} {course : List Event}

theorem Charts.messages (hcharts : layout.Charts grid top course bottom) :
    layout.signals.map SignalRow.message = course.filterMap Event.signal? := by
  rw [← @Grid.map_fst_lines grid top, ← hcharts.runs.lines, List.map_map]
  rfl

/-- The cursor that the events of a course lead to is at their end. -/
theorem Charts.foldl_y (hcharts : layout.Charts grid top course bottom) :
    (course.foldl grid.cursorAfter { y := top }).y = bottom :=
  (Grid.foldl_cursorAfter_y _ course).trans hcharts.runs.bottom.symm

/-- What is never ended lasts to the end of the rows. -/
theorem Charts.reached_y (hcharts : layout.Charts grid top course bottom) {activity : Activity}
    (hlasts : activity.Lasts course) (hended : activity.ended = false) :
    (grid.reached { y := top } activity).y = bottom := by
  obtain ⟨back, hcourse, hback⟩ := hlasts.split
  rw [hended, if_neg (by decide)] at hback
  rw [← hcharts.foldl_y, hcourse, hback, List.append_nil, List.append_cons, List.foldl_append]
  rfl

end Layout

end SequenceChart
