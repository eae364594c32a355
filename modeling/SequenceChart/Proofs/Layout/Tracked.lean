import SequenceChart.Proofs.Layout.Descent

namespace SequenceChart

open Distance

namespace OpenBars

variable {α : Type}

theorem get_cons (name key : String) (own : List α) (rest : OpenBars α) :
    get ((key, own) :: rest) name = if name = key then own else get rest name := by
  rw [get, List.lookup_cons]
  by_cases hname : name = key
  · simp [hname]
  · rw [beq_false_of_ne hname, if_neg hname]
    rfl

theorem get_of_not_mem {name : String} {bars : OpenBars α} (hname : name ∉ bars.map Prod.fst) :
    bars.get name = [] := by
  induction bars with
  | nil => rfl
  | cons entry rest ih =>
    rw [List.map_cons, List.mem_cons, not_or] at hname
    rw [get_cons, if_neg hname.1, ih hname.2]

theorem get_set_self (name : String) (starts : List α) (bars : OpenBars α) :
    (bars.set name starts).get name = starts := by
  induction bars with
  | nil => simp [set, get_cons]
  | cons entry rest ih =>
    obtain ⟨key, own⟩ := entry
    rw [set]
    by_cases hkey : key = name
    · simp [hkey, get_cons]
    · rw [if_neg hkey, get_cons, if_neg (Ne.symm hkey), ih]

theorem get_set_of_ne {name other : String} (hother : other ≠ name) (starts : List α)
    (bars : OpenBars α) : (bars.set name starts).get other = bars.get other := by
  induction bars with
  | nil => simp [set, get_cons, hother]
  | cons entry rest ih =>
    obtain ⟨key, own⟩ := entry
    rw [set]
    by_cases hkey : key = name
    · rw [if_pos hkey, get_cons, get_cons, hkey, if_neg hother, if_neg hother]
    · rw [if_neg hkey, get_cons, get_cons, ih]

theorem nodup_set (name : String) (starts : List α) {bars : OpenBars α}
    (hbars : (bars.map Prod.fst).Nodup) : ((bars.set name starts).map Prod.fst).Nodup := by
  induction bars with
  | nil => simp [set]
  | cons entry rest ih =>
    obtain ⟨hentry, hrest⟩ := List.nodup_cons.1 hbars
    rw [set]
    by_cases hname : entry.1 = name
    · rw [if_pos hname, List.map_cons, List.nodup_cons]
      exact ⟨hname ▸ hentry, hrest⟩
    · rw [if_neg hname, List.map_cons, List.nodup_cons]
      refine ⟨fun hmem => ?_, ih hrest⟩
      obtain heq | hmem := List.mem_cons.1 (map_set_subset name starts rest hmem)
      · exact hname heq
      · exact hentry hmem

end OpenBars

@[simp] theorem Rows.bars_append (upper lower : Rows ℚ) :
    (upper ++ lower).bars = upper.bars ++ lower.bars :=
  rfl

/-- Where an activation that begins here has its upper end: at the last signal, if there is one. -/
def Cursor.line (cursor : Cursor ℚ) : ℚ :=
  cursor.lastSignal.getD cursor.y

namespace Grid

variable {grid : Grid ℚ}

/-- How far down rows have been placed after an event. -/
def cursorAfter (grid : Grid ℚ) (cursor : Cursor ℚ) : Event → Cursor ℚ
  | .signal message =>
    { cursor with
      y := cursor.y + grid.advance (.signal message)
      index := cursor.index + 1
      lastSignal := some (cursor.y + grid.labelBand message) }
  | .activation name starts =>
    let own := cursor.opened.get name
    { cursor with opened := cursor.opened.set name (if starts then cursor.line :: own else own.tail) }
  | event => { cursor with y := cursor.y + event.border }

/-- Where an activation that has begun at a height and ends here has its lower end: at the last signal,
    unless there has been none since. -/
def stop (grid : Grid ℚ) (cursor : Cursor ℚ) (start : ℚ) : ℚ :=
  match cursor.lastSignal with
  | none => start + grid.spacing.rowHeight / 2
  | some last => if start < last then last else start + grid.spacing.rowHeight / 2

/-- The bar of an activation that has a number of other ones of its participant around it, and that extends
    from one height to another. -/
def barAt (grid : Grid ℚ) (name : String) (level : Nat) (span : ℚ × ℚ) : ActivationBar ℚ :=
  ⟨name, grid.center (columnIn grid.participants name) - barWidth / 2 + ofCount level * barWidth / 2,
    span.1, span.2, barWidth⟩

/-- The bars that an event places. -/
def barsAt (grid : Grid ℚ) (cursor : Cursor ℚ) : Event → List (ActivationBar ℚ)
  | .activation name false =>
    match cursor.opened.get name with
    | [] => []
    | start :: outer => [grid.barAt name outer.length (start, grid.stop cursor start)]
  | _ => []

/-- The bars that a course of events places. -/
def barsIn (grid : Grid ℚ) (cursor : Cursor ℚ) : List Event → List (ActivationBar ℚ)
  | [] => []
  | event :: rest => grid.barsAt cursor event ++ barsIn grid (grid.cursorAfter cursor event) rest

theorem barsIn_append (cursor : Cursor ℚ) (course later : List Event) :
    grid.barsIn cursor (course ++ later) =
      grid.barsIn cursor course ++ grid.barsIn (course.foldl grid.cursorAfter cursor) later := by
  induction course generalizing cursor with
  | nil => rfl
  | cons event rest ih => simp [barsIn, ih]

theorem bar_eq {name : String} {top bottom : ℚ} {level : Nat} {placed : ActivationBar ℚ}
    (hplaced : grid.bar name top bottom level = .ok placed) :
    placed = grid.barAt name level (top, bottom) := by
  obtain ⟨column, hcolumn, hplaced⟩ := bind_eq_ok_iff.1 hplaced
  cases hplaced
  rw [barAt, columnIn, column?_of_columnOf hcolumn]
  rfl

/-- The bars placed and the cursor reached are those of a course of events. -/
structure Tracks (grid : Grid ℚ) (cursor : Cursor ℚ) (course : List Event)
    (bars : List (ActivationBar ℚ)) (after : Cursor ℚ) : Prop where
  after : after = course.foldl grid.cursorAfter cursor
  bars : bars = grid.barsIn cursor course

theorem Tracks.nil (cursor : Cursor ℚ) : grid.Tracks cursor [] [] cursor :=
  ⟨rfl, rfl⟩

theorem Tracks.append {cursor middle after : Cursor ℚ} {course later : List Event}
    {bars others : List (ActivationBar ℚ)} (hfirst : grid.Tracks cursor course bars middle)
    (hsecond : grid.Tracks middle later others after) :
    grid.Tracks cursor (course ++ later) (bars ++ others) after := by
  obtain ⟨rfl, rfl⟩ := hfirst
  obtain ⟨rfl, rfl⟩ := hsecond
  exact ⟨(List.foldl_append ..).symm, (barsIn_append ..).symm⟩

theorem placeSignal_tracks {signal : Signal} {cursor after : Cursor ℚ} {row : SignalRow ℚ}
    (hplaced : grid.placeSignal signal cursor = .ok (row, after)) :
    grid.Tracks cursor [.signal signal] [] after := by
  have hruns := placeSignal_runs hplaced
  obtain ⟨source, _, hplaced⟩ := bind_eq_ok_iff.1 hplaced
  obtain ⟨target, _, hplaced⟩ := bind_eq_ok_iff.1 hplaced
  cases hplaced
  refine ⟨?_, rfl⟩
  have hbottom := hruns.bottom
  simp only [descent, List.map_cons, List.map_nil, List.sum_cons, List.sum_nil, add_zero] at hbottom
  simp only [List.foldl_cons, List.foldl_nil, cursorAfter, ← hbottom]

theorem placeActivation_tracks {name : String} {starts : Bool} {cursor after : Cursor ℚ}
    {bars : List (ActivationBar ℚ)}
    (hplaced : grid.placeActivation name starts cursor = .ok (bars, after)) :
    grid.Tracks cursor [.activation name starts] bars after := by
  cases starts with
  | true =>
    cases hplaced
    exact ⟨rfl, rfl⟩
  | false =>
    simp only [placeActivation, Bool.false_eq_true, if_false] at hplaced
    split at hplaced
    · next hown =>
      cases hplaced
      exact ⟨by simp [cursorAfter, hown], by simp [barsIn, barsAt, hown]⟩
    · next start outer hown =>
      obtain ⟨placed, hbar, hplaced⟩ := bind_eq_ok_iff.1 hplaced
      cases hplaced
      refine ⟨by simp [cursorAfter, hown], ?_⟩
      simp only [barsIn, barsAt, hown, List.append_nil, bar_eq hbar, stop]
      cases cursor.lastSignal <;> rfl

/-- Events other than signals and activations only move the cursor. -/
theorem Tracks.skip (grid : Grid ℚ) (cursor : Cursor ℚ) (event : Event)
    (hsignal : event.signal? = none) (hactivation : ∀ name starts, event ≠ .activation name starts) :
    grid.Tracks cursor [event] [] { cursor with y := cursor.y + event.border } := by
  cases event with
  | signal message => cases hsignal
  | activation name starts => exact absurd rfl (hactivation name starts)
  | _ => exact ⟨rfl, rfl⟩

mutual

/-- What activations show depends only on the events. -/
theorem placeBody_tracks (depth : Nat) : ∀ (body : Body) {cursor after : Cursor ℚ} {rows : Rows ℚ},
    grid.placeBody depth body cursor = .ok (rows, after) →
      grid.Tracks cursor body.events rows.bars after
  | .empty, cursor, _, _, hplaced => by
    cases hplaced
    exact .nil cursor
  | .signal message rest, _, _, _, hplaced => by
    obtain ⟨⟨row, middle⟩, hsignal, hplaced⟩ := bind_eq_ok_iff.1 hplaced
    obtain ⟨⟨others, after⟩, hrest, hplaced⟩ := bind_eq_ok_iff.1 hplaced
    cases hplaced
    exact (placeSignal_tracks hsignal).append (placeBody_tracks depth rest hrest)
  | .activation name starts rest, _, _, _, hplaced => by
    obtain ⟨⟨bars, middle⟩, hactivation, hplaced⟩ := bind_eq_ok_iff.1 hplaced
    obtain ⟨⟨others, after⟩, hrest, hplaced⟩ := bind_eq_ok_iff.1 hplaced
    cases hplaced
    exact (placeActivation_tracks hactivation).append (placeBody_tracks depth rest hrest)
  | .fragment kind operands rest, cursor, _, _, hplaced => by
    obtain ⟨⟨dividers, inner, middle⟩, hoperands, hplaced⟩ := bind_eq_ok_iff.1 hplaced
    obtain ⟨box, _, hplaced⟩ := bind_eq_ok_iff.1 hplaced
    obtain ⟨⟨others, after⟩, hrest, hplaced⟩ := bind_eq_ok_iff.1 hplaced
    cases hplaced
    have hopening := Tracks.skip grid cursor (.opening kind operands.label) rfl nofun
    have hclosing := Tracks.skip grid middle .closing rfl nofun
    have hinside := (placeOperands_tracks (depth + 1) true operands hoperands).append hclosing
    have hwhole := (hopening.append hinside).append (placeBody_tracks depth rest hrest)
    simpa [Body.events] using hwhole

theorem placeOperands_tracks (depth : Nat) (isFirst : Bool) : ∀ (operands : Operands)
    {cursor after : Cursor ℚ} {dividers : List (Divider ℚ)} {rows : Rows ℚ},
    grid.placeOperands depth isFirst operands cursor = .ok (dividers, rows, after) →
      grid.Tracks cursor (operands.events isFirst) rows.bars after
  | .none, cursor, _, _, _, hplaced => by
    cases hplaced
    exact .nil cursor
  | .cons guard body rest, cursor, _, _, _, hplaced => by
    obtain ⟨⟨own, middle⟩, hbody, hplaced⟩ := bind_eq_ok_iff.1 hplaced
    obtain ⟨⟨others, below, after⟩, hrest, hplaced⟩ := bind_eq_ok_iff.1 hplaced
    cases hplaced
    have hinside := (placeBody_tracks depth body hbody).append (placeOperands_tracks depth false rest hrest)
    cases isFirst with
    | true => simpa [Operands.events] using hinside
    | false =>
      have hnext := Tracks.skip grid cursor (.next guard) rfl nofun
      simpa [Operands.events] using hnext.append hinside

end

theorem nodup_foldl (course : List Event) {cursor : Cursor ℚ}
    (hcursor : (cursor.opened.map Prod.fst).Nodup) :
    ((course.foldl grid.cursorAfter cursor).opened.map Prod.fst).Nodup := by
  induction course generalizing cursor with
  | nil => exact hcursor
  | cons event rest ih =>
    apply ih
    cases event with
    | activation name starts => exact OpenBars.nodup_set name _ hcursor
    | _ => exact hcursor

/-- From where to where an activation extends that has begun at a height and is still open at the end. -/
def openSpan (grid : Grid ℚ) (y start : ℚ) : ℚ × ℚ :=
  (start, larger (y - grid.spacing.rowHeight / 2) start)

/-- The bars of the activations of a participant that are still open at the end, the innermost first. -/
def openBars (grid : Grid ℚ) (name : String) (y : ℚ) : List ℚ → List (ActivationBar ℚ)
  | [] => []
  | start :: outer => grid.barAt name outer.length (grid.openSpan y start) :: openBars grid name y outer

theorem closeBars_eq {name : String} {y : ℚ} {starts : List ℚ} {bars : List (ActivationBar ℚ)}
    (hclosed : grid.closeBars name y starts = .ok bars) : bars = (grid.openBars name y starts).reverse := by
  induction starts generalizing bars with
  | nil =>
    cases hclosed
    rfl
  | cons start outer ih =>
    obtain ⟨others, hothers, hclosed⟩ := bind_eq_ok_iff.1 hclosed
    obtain ⟨placed, hplaced, hclosed⟩ := bind_eq_ok_iff.1 hclosed
    cases hclosed
    rw [openBars, List.reverse_cons, ← ih hothers, bar_eq hplaced]
    rfl

theorem participant_of_mem_openBars {name : String} {y : ℚ} {starts : List ℚ} {bar : ActivationBar ℚ}
    (hbar : bar ∈ grid.openBars name y starts) : bar.participant = name := by
  induction starts with
  | nil => cases hbar
  | cons start outer ih =>
    obtain rfl | hbar := List.mem_cons.1 hbar
    · rfl
    · exact ih hbar

/-- The bars of a participant whose activations are still open at the end extend down to there. -/
theorem filter_closeAllBars {y : ℚ} {opened : OpenBars ℚ} (hopened : (opened.map Prod.fst).Nodup)
    {bars : List (ActivationBar ℚ)} (hclosed : grid.closeAllBars y opened = .ok bars) (name : String) :
    bars.filter (·.participant = name) = (grid.openBars name y (opened.get name)).reverse := by
  induction opened generalizing bars with
  | nil =>
    cases hclosed
    rfl
  | cons entry rest ih =>
    obtain ⟨key, starts⟩ := entry
    obtain ⟨hkey, hrest⟩ := List.nodup_cons.1 hopened
    obtain ⟨own, hown, hclosed⟩ := bind_eq_ok_iff.1 hclosed
    obtain ⟨others, hothers, hclosed⟩ := bind_eq_ok_iff.1 hclosed
    cases hclosed
    have howned : ∀ bar ∈ own, bar.participant = key := fun bar hbar =>
      participant_of_mem_openBars (List.mem_reverse.1 (closeBars_eq hown ▸ hbar))
    rw [List.filter_append, ih hrest hothers, OpenBars.get_cons]
    by_cases hname : name = key
    · subst hname
      rw [if_pos rfl, OpenBars.get_of_not_mem hkey, List.filter_eq_self.2 (by simpa using howned),
        closeBars_eq hown]
      exact List.append_nil _
    · rw [if_neg hname, List.filter_eq_nil_iff.2 fun bar hbar => ?_]
      · rfl
      · simpa [howned bar hbar] using Ne.symm hname

section Reached

variable {cursor : Cursor ℚ}

theorem cursorAfter_y (grid : Grid ℚ) (cursor : Cursor ℚ) (event : Event) :
    (grid.cursorAfter cursor event).y = cursor.y + grid.advance event := by
  cases event with
  | activation name starts => exact (add_zero cursor.y).symm
  | _ => rfl

theorem foldl_cursorAfter_y (cursor : Cursor ℚ) (course : List Event) :
    (course.foldl grid.cursorAfter cursor).y = cursor.y + grid.descent course := by
  induction course generalizing cursor with
  | nil => exact (add_zero cursor.y).symm
  | cons event rest ih => simp [ih, cursorAfter_y, descent, add_assoc]

/-- The last signal is not below the cursor. -/
def Settled (cursor : Cursor ℚ) : Prop :=
  ∀ last ∈ cursor.lastSignal, last ≤ cursor.y

theorem settled_start (y : ℚ) : Settled { y } := by
  intro last hlast
  cases hlast

theorem Settled.line_le (hcursor : Settled cursor) : cursor.line ≤ cursor.y := by
  rw [Cursor.line]
  cases hlast : cursor.lastSignal with
  | none => exact le_rfl
  | some last => exact hcursor last hlast

theorem labelBand_pos (hheight : ∀ text, 0 ≤ (grid.measure text).height) (signal : Signal) :
    0 < grid.labelBand signal := by
  have hlabel := Columns.signalSize_height_nonneg hheight signal
  rw [labelBand_eq, labelGap]
  linarith

theorem labelBand_le_advance (grid : Grid ℚ) (signal : Signal) :
    grid.labelBand signal ≤ grid.advance (.signal signal) := by
  have hrow := le_max_right grid.spacing.rowHeight (grid.labelBand signal + labelGap * 2)
  rw [advance, larger_eq_max]
  simp only [labelGap, loopRow] at hrow ⊢
  split <;> linarith

theorem advance_nonneg (hheight : ∀ text, 0 ≤ (grid.measure text).height) (event : Event) :
    0 ≤ grid.advance event := by
  cases event with
  | signal message =>
    exact (labelBand_pos hheight message).le.trans (labelBand_le_advance grid message)
  | _ => exact Event.border_nonneg _

theorem Settled.after (hheight : ∀ text, 0 ≤ (grid.measure text).height) (hcursor : Settled cursor)
    (event : Event) : Settled (grid.cursorAfter cursor event) := by
  intro last hlast
  rw [cursorAfter_y]
  cases event with
  | signal message =>
    obtain rfl := Option.some.inj hlast
    have hband := labelBand_le_advance grid message
    linarith
  | _ => exact (hcursor last hlast).trans (le_add_of_nonneg_right (advance_nonneg hheight _))

theorem Settled.foldl (hheight : ∀ text, 0 ≤ (grid.measure text).height) (hcursor : Settled cursor)
    (course : List Event) : Settled (course.foldl grid.cursorAfter cursor) := by
  induction course generalizing cursor with
  | nil => exact hcursor
  | cons event rest ih => exact ih (hcursor.after hheight event)

theorem Settled.line_le_after (hheight : ∀ text, 0 ≤ (grid.measure text).height)
    (hcursor : Settled cursor) (event : Event) : cursor.line ≤ (grid.cursorAfter cursor event).line := by
  cases event with
  | signal message =>
    have hband := labelBand_pos hheight message
    have hline : (grid.cursorAfter cursor (.signal message)).line = cursor.y + grid.labelBand message := rfl
    linarith [hcursor.line_le]
  | activation name starts => exact le_rfl
  | _ =>
    simp only [Cursor.line, cursorAfter]
    cases cursor.lastSignal with
    | none => exact le_add_of_nonneg_right (Event.border_nonneg _)
    | some last => exact le_rfl

/-- The signals of a course stand below the last one in front of it, and down to the last one of the
    course. If it has none, the last one in front of it stays the last one. -/
theorem lines_between (hheight : ∀ text, 0 ≤ (grid.measure text).height) (hcursor : Settled cursor)
    (course : List Event) :
    (grid.lines cursor.y course = [] →
      (course.foldl grid.cursorAfter cursor).lastSignal = cursor.lastSignal) ∧
    ∀ place ∈ grid.lines cursor.y course, cursor.line < place.2 ∧
      ∃ last ∈ (course.foldl grid.cursorAfter cursor).lastSignal, place.2 ≤ last := by
  induction course generalizing cursor with
  | nil => exact ⟨fun _ => rfl, List.forall_mem_nil _⟩
  | cons event rest ih =>
    obtain ⟨hkept, hbelow⟩ := ih (hcursor.after hheight event)
    rw [cursorAfter_y] at hkept hbelow
    have hline := hcursor.line_le
    cases event with
    | signal message =>
      have hband := labelBand_pos hheight message
      have hstart : (grid.cursorAfter cursor (.signal message)).line = cursor.y + grid.labelBand message :=
        rfl
      refine ⟨nofun, List.forall_mem_cons.2 ⟨⟨by linarith, ?_⟩, fun place hplace => ?_⟩⟩
      · cases hrest : grid.lines (cursor.y + grid.advance (.signal message)) rest with
        | nil => exact ⟨_, hkept hrest, le_rfl⟩
        | cons place others =>
          obtain ⟨hlower, last, hlast, hle⟩ := hbelow place (by simp [hrest])
          exact ⟨last, hlast, by linarith⟩
      · obtain ⟨hlower, hlast⟩ := hbelow place hplace
        exact ⟨by linarith, hlast⟩
    | _ =>
      refine ⟨hkept, fun place hplace => ?_⟩
      obtain ⟨hlower, hlast⟩ := hbelow place hplace
      exact ⟨(hcursor.line_le_after hheight _).trans_lt hlower, hlast⟩

end Reached

theorem lt_stop (hrow : 0 < grid.spacing.rowHeight) (cursor : Cursor ℚ) (start : ℚ) :
    start < grid.stop cursor start := by
  rw [stop]
  split
  · linarith
  · split
    · assumption
    · linarith

theorem stop_of_lt {cursor : Cursor ℚ} {start last : ℚ} (hlast : last ∈ cursor.lastSignal)
    (hstart : start < last) : grid.stop cursor start = last := by
  rw [stop, Option.mem_def.1 hlast]
  exact if_pos hstart

theorem map_fst_lines (y : ℚ) (course : List Event) :
    (grid.lines y course).map Prod.fst = course.filterMap Event.signal? := by
  induction course generalizing y with
  | nil => rfl
  | cons event rest ih =>
    rw [lines, List.map_append, ih, List.filterMap_cons]
    cases event.signal? <;> rfl

theorem lines_eq_nil_iff {y : ℚ} {course : List Event} :
    grid.lines y course = [] ↔ course.filterMap Event.signal? = [] := by
  rw [← @map_fst_lines grid y, List.map_eq_nil_iff]

/-- The rows of a course in three parts are those of the parts. -/
theorem Runs.split {top bottom : ℚ} {front middle back : List Event} {rows : List (SignalRow ℚ)}
    (hruns : grid.Runs top (front ++ middle ++ back) rows bottom) :
    ∃ above inside below, rows = above ++ inside ++ below ∧
      above.map SignalRow.message = front.filterMap Event.signal? ∧
      inside.map (fun row => (row.message, row.y)) = grid.lines (top + grid.descent front) middle := by
  have hlines := hruns.lines
  rw [lines_append, lines_append] at hlines
  obtain ⟨upper, below, rfl, hupper, -⟩ := List.map_eq_append_iff.1 hlines
  obtain ⟨above, inside, rfl, habove, hinside⟩ := List.map_eq_append_iff.1 hupper
  refine ⟨above, inside, below, rfl, ?_, hinside⟩
  rw [← map_fst_lines top, ← habove, List.map_map]
  rfl

end Grid

end SequenceChart
