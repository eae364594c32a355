import Mathlib.Algebra.Order.BigOperators.Group.List
import SequenceChart.Proofs.Layout.Placed
import SequenceChart.Proofs.Statement.Grammar

namespace SequenceChart

open Distance

/-- The signal of an event. -/
def Event.signal? : Event → Option Signal
  | .signal message => some message
  | _ => none

/-- The height that an event takes for the border of a fragment. -/
def Event.border : Event → ℚ
  | .opening _ _ => fragmentHeader
  | .next _ => dividerHeight
  | .closing => fragmentBottom
  | .signal _ | .activation _ _ => 0

theorem Event.border_nonneg (event : Event) : 0 ≤ event.border := by
  cases event <;> norm_num [border, fragmentHeader, dividerHeight, fragmentBottom]

/-- The height that events take for the borders of fragments. -/
def Event.borders (course : List Event) : ℚ :=
  (course.map Event.border).sum

theorem Event.borders_nonneg (course : List Event) : 0 ≤ Event.borders course := by
  refine List.sum_nonneg fun height hheight => ?_
  obtain ⟨event, -, rfl⟩ := List.mem_map.1 hheight
  exact border_nonneg event

theorem Event.borders_concat (course : List Event) (event : Event) :
    Event.borders (course ++ [event]) = Event.borders course + event.border := by
  simp [borders]

/-- What keeps the line of a signal from that of the next one besides its row: its loop, borders of
    fragments in between, and the label of the next one. -/
def SignalRow.extra (row : SignalRow ℚ) (between : List Event) (next : SignalRow ℚ) : ℚ :=
  (if row.isSelf then 30 else 0) + (between.map Event.border).sum + next.labelHeight

@[simp] theorem Rows.signals_append (upper lower : Rows ℚ) :
    (upper ++ lower).signals = upper.signals ++ lower.signals :=
  rfl

namespace Grid

variable {grid : Grid ℚ}

/-- How much further down rows are placed after an event. -/
def advance (grid : Grid ℚ) : Event → ℚ
  | .signal message =>
    larger grid.spacing.rowHeight (grid.labelBand message + labelGap * 2) +
      if message.isSelf then loopRow else 0
  | event => event.border

theorem advance_eq_border {event : Event} (hevent : event.signal? = none) :
    grid.advance event = event.border := by
  cases event with
  | signal message => cases hevent
  | _ => rfl

/-- How much further down rows are placed after a course of events. -/
def descent (grid : Grid ℚ) (course : List Event) : ℚ :=
  (course.map grid.advance).sum

theorem Carries.advance_eq {row : SignalRow ℚ} (hcarries : grid.Carries row) :
    grid.advance (.signal row.message) =
      max (grid.spacing.rowHeight - row.labelHeight) 18 + row.labelHeight +
        if row.isSelf then 30 else 0 := by
  have hroom : row.labelHeight + labelGap + labelGap * 2 = 18 + row.labelHeight := by
    simp only [labelGap]
    linarith
  have hshort := max_add_add_right (grid.spacing.rowHeight - row.labelHeight) 18 row.labelHeight
  rw [sub_add_cancel] at hshort
  rw [advance, larger_eq_max, hcarries.labelBand_eq, ← hcarries.isSelf, hroom, hshort]

/-- The signals of a course of events that begins at a height, each with the height of its line. -/
def lines (grid : Grid ℚ) (y : ℚ) : List Event → List (Signal × ℚ)
  | [] => []
  | event :: rest =>
    (event.signal?.map fun message => (message, y + grid.labelBand message)).toList ++
      lines grid (y + grid.advance event) rest

theorem lines_append (y : ℚ) (course later : List Event) :
    grid.lines y (course ++ later) =
      grid.lines y course ++ grid.lines (y + grid.descent course) later := by
  induction course generalizing y with
  | nil => simp [lines, descent]
  | cons event rest ih => simp [lines, descent, ih, add_assoc]

theorem descent_append (course later : List Event) :
    grid.descent (course ++ later) = grid.descent course + grid.descent later := by
  simp [descent]

/-- Rows are those of a course of events between two heights. -/
structure Runs (grid : Grid ℚ) (top : ℚ) (course : List Event) (rows : List (SignalRow ℚ))
    (bottom : ℚ) : Prop where
  lines : rows.map (fun row => (row.message, row.y)) = grid.lines top course
  bottom : bottom = top + grid.descent course

theorem Runs.nil (y : ℚ) : grid.Runs y [] [] y :=
  ⟨rfl, (add_zero y).symm⟩

theorem Runs.append {top middle bottom : ℚ} {course later : List Event}
    {rows others : List (SignalRow ℚ)} (hfirst : grid.Runs top course rows middle)
    (hsecond : grid.Runs middle later others bottom) :
    grid.Runs top (course ++ later) (rows ++ others) bottom := by
  obtain ⟨hlines, rfl⟩ := hfirst
  obtain ⟨hothers, rfl⟩ := hsecond
  refine ⟨?_, ?_⟩
  · rw [List.map_append, hlines, hothers, lines_append]
  · rw [descent_append, add_assoc]

/-- Events other than signals only take room. -/
theorem Runs.skip (grid : Grid ℚ) {event : Event} (hevent : event.signal? = none) (y : ℚ) :
    grid.Runs y [event] [] (y + event.border) := by
  cases event with
  | signal message => cases hevent
  | _ => exact ⟨rfl, by simp [descent, advance]⟩

theorem placeSignal_runs {signal : Signal} {cursor after : Cursor ℚ} {row : SignalRow ℚ}
    (hplaced : grid.placeSignal signal cursor = .ok (row, after)) :
    grid.Runs cursor.y [.signal signal] [row] after.y := by
  obtain ⟨source, _, hplaced⟩ := bind_eq_ok_iff.1 hplaced
  obtain ⟨target, _, hplaced⟩ := bind_eq_ok_iff.1 hplaced
  cases hplaced
  refine ⟨rfl, ?_⟩
  simp only [descent, advance, List.map_cons, List.map_nil, List.sum_cons, List.sum_nil]
  split <;> linarith

theorem placeActivation_runs {name : String} {starts : Bool} {cursor after : Cursor ℚ}
    {bars : List (ActivationBar ℚ)}
    (hplaced : grid.placeActivation name starts cursor = .ok (bars, after)) :
    grid.Runs cursor.y [.activation name starts] [] after.y := by
  have hkept : after.y = cursor.y := by
    simp only [placeActivation] at hplaced
    split at hplaced
    · cases hplaced
      rfl
    · split at hplaced
      · cases hplaced
        rfl
      · obtain ⟨_, _, hplaced⟩ := bind_eq_ok_iff.1 hplaced
        cases hplaced
        rfl
  rw [hkept]
  have hskip : grid.Runs cursor.y [.activation name starts] [] (cursor.y + 0) := .skip grid rfl cursor.y
  rwa [add_zero] at hskip

mutual

/-- Where the lines of signals are depends only on the events in front of them. -/
theorem placeBody_runs (depth : Nat) : ∀ (body : Body) {cursor after : Cursor ℚ} {rows : Rows ℚ},
    grid.placeBody depth body cursor = .ok (rows, after) →
      grid.Runs cursor.y body.events rows.signals after.y
  | .empty, cursor, _, _, hplaced => by
    cases hplaced
    exact .nil cursor.y
  | .signal message rest, _, _, _, hplaced => by
    obtain ⟨⟨row, middle⟩, hsignal, hplaced⟩ := bind_eq_ok_iff.1 hplaced
    obtain ⟨⟨others, after⟩, hrest, hplaced⟩ := bind_eq_ok_iff.1 hplaced
    cases hplaced
    exact (placeSignal_runs hsignal).append (placeBody_runs depth rest hrest)
  | .activation name starts rest, _, _, _, hplaced => by
    obtain ⟨⟨bars, middle⟩, hactivation, hplaced⟩ := bind_eq_ok_iff.1 hplaced
    obtain ⟨⟨others, after⟩, hrest, hplaced⟩ := bind_eq_ok_iff.1 hplaced
    cases hplaced
    exact (placeActivation_runs hactivation).append (placeBody_runs depth rest hrest)
  | .fragment kind operands rest, _, _, _, hplaced => by
    obtain ⟨⟨dividers, inner, middle⟩, hoperands, hplaced⟩ := bind_eq_ok_iff.1 hplaced
    obtain ⟨box, _, hplaced⟩ := bind_eq_ok_iff.1 hplaced
    obtain ⟨⟨others, after⟩, hrest, hplaced⟩ := bind_eq_ok_iff.1 hplaced
    cases hplaced
    have hopening (y : ℚ) : grid.Runs y [.opening kind operands.label] [] (y + fragmentHeader) :=
      .skip grid rfl y
    have hclosing (y : ℚ) : grid.Runs y [.closing] [] (y + fragmentBottom) := .skip grid rfl y
    have hinside := (placeOperands_runs (depth + 1) true operands hoperands).append (hclosing middle.y)
    have hwhole := ((hopening _).append hinside).append (placeBody_runs depth rest hrest)
    simpa [Body.events] using hwhole

theorem placeOperands_runs (depth : Nat) (isFirst : Bool) : ∀ (operands : Operands)
    {cursor after : Cursor ℚ} {dividers : List (Divider ℚ)} {rows : Rows ℚ},
    grid.placeOperands depth isFirst operands cursor = .ok (dividers, rows, after) →
      grid.Runs cursor.y (operands.events isFirst) rows.signals after.y
  | .none, cursor, _, _, _, hplaced => by
    cases hplaced
    exact .nil cursor.y
  | .cons guard body rest, cursor, _, _, _, hplaced => by
    obtain ⟨⟨own, middle⟩, hbody, hplaced⟩ := bind_eq_ok_iff.1 hplaced
    obtain ⟨⟨others, below, after⟩, hrest, hplaced⟩ := bind_eq_ok_iff.1 hplaced
    cases hplaced
    have hinside := (placeBody_runs depth body hbody).append (placeOperands_runs depth false rest hrest)
    cases isFirst with
    | true => simpa [Operands.events] using hinside
    | false =>
      have hnext : grid.Runs cursor.y [.next guard] [] (cursor.y + dividerHeight) :=
        .skip grid rfl cursor.y
      simpa [Operands.events] using hnext.append hinside

end

/-- The first signal of a course stands behind events that only take room. What comes after it begins
    below its row, wherever the course began. -/
theorem lines_eq_cons {y line : ℚ} {course : List Event} {message : Signal} {rest : List (Signal × ℚ)}
    (hlines : grid.lines y course = (message, line) :: rest) :
    ∃ between back, course = between ++ .signal message :: back ∧
      (∀ event ∈ between, event.signal? = none) ∧
      line = y + (between.map Event.border).sum + grid.labelBand message ∧
      rest = grid.lines (line - grid.labelBand message + grid.advance (.signal message)) back := by
  induction course generalizing y with
  | nil => cases hlines
  | cons event course ih =>
    cases event with
    | signal first =>
      obtain ⟨hfirst, hrest⟩ := List.cons.inj hlines
      obtain ⟨rfl, rfl⟩ := Prod.mk.inj hfirst
      exact ⟨[], course, rfl, List.forall_mem_nil _, by simp, by simp [← hrest]⟩
    | _ =>
      -- Whatever else happens only moves the start of the rest down by its border.
      obtain ⟨between, back, rfl, hbetween, hline, hback⟩ := ih hlines
      refine ⟨_ :: between, back, rfl, List.forall_mem_cons.2 ⟨rfl, hbetween⟩, ?_, hback⟩
      simpa [advance, add_assoc] using hline

theorem lines_eq_append {y : ℚ} {course : List Event} {front rest : List (Signal × ℚ)}
    (hlines : grid.lines y course = front ++ rest) :
    ∃ before back height, course = before ++ back ∧
      before.filterMap Event.signal? = front.map Prod.fst ∧ rest = grid.lines height back := by
  induction front generalizing y course with
  | nil => exact ⟨[], course, y, rfl, rfl, hlines.symm⟩
  | cons first front ih =>
    obtain ⟨between, back, rfl, hbetween, _, hback⟩ := lines_eq_cons hlines
    obtain ⟨before, later, height, rfl, hbefore, hrest⟩ := ih hback.symm
    refine ⟨between ++ .signal first.1 :: before, later, height, by simp, ?_, hrest⟩
    rw [List.filterMap_append, List.filterMap_eq_nil_iff.2 hbetween]
    exact congrArg (first.1 :: ·) hbefore

/-- Two signals one after the other are a row apart that is cut short by the label of the first one,
    and also the label of the second one and whatever else is between them. -/
theorem Runs.distance {top bottom : ℚ} {course : List Event} {rows : List (SignalRow ℚ)}
    (hruns : grid.Runs top course rows bottom) (hcarries : ∀ row ∈ rows, grid.Carries row)
    {front back : List (SignalRow ℚ)} {row next : SignalRow ℚ}
    (hsplit : rows = front ++ row :: next :: back) :
    ∃ before between after,
      course = before ++ .signal row.message :: between ++ .signal next.message :: after ∧
      before.filterMap Event.signal? = front.map SignalRow.message ∧
      (∀ event ∈ between, event.signal? = none) ∧
      next.y - row.y = max (grid.spacing.rowHeight - row.labelHeight) 18 + row.extra between next := by
  have hlines := hruns.lines
  rw [hsplit, List.map_append, List.map_cons, List.map_cons] at hlines
  obtain ⟨before, course, height, rfl, hbefore, hrest⟩ := lines_eq_append hlines.symm
  obtain ⟨skipped, course, rfl, hskipped, _, hrest⟩ := lines_eq_cons hrest.symm
  obtain ⟨between, after, rfl, hbetween, hnext, _⟩ := lines_eq_cons hrest.symm
  refine ⟨before ++ skipped, between, after, by simp, ?_, hbetween, ?_⟩
  · rw [List.filterMap_append, hbefore, List.filterMap_eq_nil_iff.2 hskipped, List.append_nil,
      List.map_map]
    rfl
  · have hrow : grid.Carries row := hcarries row (by simp [hsplit])
    have hlater : grid.Carries next := hcarries next (by simp [hsplit])
    rw [hnext, hrow.advance_eq, hrow.labelBand_eq, hlater.labelBand_eq, SignalRow.extra]
    linarith

end Grid

end SequenceChart
