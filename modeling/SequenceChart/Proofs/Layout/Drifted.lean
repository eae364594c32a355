import SequenceChart.Font
import SequenceChart.Proofs.Layout.Composed
import SequenceChart.Proofs.Layout.DriftedColumns
import SequenceChart.Proofs.Layout.Tracked

namespace SequenceChart

variable {drift : Drift}

/-- Open activations of the same participants, the starts of which move. -/
def OpenBars.Drifts (shift : Shift) : OpenBars ℚ → OpenBars ℚ → Prop :=
  List.Forall₂ fun entry other => other.1 = entry.1 ∧ List.Forall₂ shift.Moves entry.2 other.2

namespace OpenBars.Drifts

variable {shift : Shift} {bars others : OpenBars ℚ}

theorem get (hbars : Drifts shift bars others) (name : String) :
    List.Forall₂ shift.Moves (bars.get name) (others.get name) := by
  induction hbars with
  | nil => exact .nil
  | @cons entry other _ _ hentry _ ih =>
    obtain ⟨key, own⟩ := entry
    obtain ⟨_, starts⟩ := other
    obtain ⟨rfl, hstarts⟩ := hentry
    rw [get_cons, get_cons]
    split
    · exact hstarts
    · exact ih

theorem set (hbars : Drifts shift bars others) (name : String) {starts copies : List ℚ}
    (hstarts : List.Forall₂ shift.Moves starts copies) :
    Drifts shift (bars.set name starts) (others.set name copies) := by
  induction hbars with
  | nil => exact .cons ⟨rfl, hstarts⟩ .nil
  | @cons entry other _ _ hentry hrest ih =>
    obtain ⟨key, own⟩ := entry
    obtain ⟨_, inner⟩ := other
    obtain ⟨rfl, hown⟩ := hentry
    rw [OpenBars.set, OpenBars.set]
    split
    · exact .cons ⟨rfl, hstarts⟩ hrest
    · exact .cons ⟨rfl, hown⟩ ih

end OpenBars.Drifts

/-- A cursor that moves. -/
structure Cursor.Drifts (drift : Drift) (cursor other : Cursor ℚ) : Prop where
  y : drift.down.Moves cursor.y other.y
  lastSignal : Option.Rel drift.down.Moves cursor.lastSignal other.lastSignal
  opened : OpenBars.Drifts drift.down cursor.opened other.opened
  index : other.index = cursor.index

theorem Cursor.Drifts.moved {cursor other : Cursor ℚ} (hcursor : Cursor.Drifts drift cursor other)
    {y height : ℚ} (hy : drift.down.Moves y height) :
    Cursor.Drifts drift { cursor with y } { other with y := height } :=
  ⟨hy, hcursor.lastSignal, hcursor.opened, hcursor.index⟩

/-- Rows that move. -/
structure Rows.Drifts (drift : Drift) (rows other : Rows ℚ) : Prop where
  signals : List.Forall₂ (SignalRow.Drifts drift) rows.signals other.signals
  bars : List.Forall₂ (ActivationBar.Drifts drift) rows.bars other.bars
  boxes : List.Forall₂ (FragmentBox.Drifts drift) rows.boxes other.boxes

theorem Rows.Drifts.append {above below upper lower : Rows ℚ} (habove : Rows.Drifts drift above upper)
    (hbelow : Rows.Drifts drift below lower) :
    Rows.Drifts drift (above ++ below) (upper ++ lower) :=
  ⟨List.rel_append habove.signals hbelow.signals, List.rel_append habove.bars hbelow.bars,
    List.rel_append habove.boxes hbelow.boxes⟩

/-- Grids for the same participants and labels, the columns of which move. -/
structure Grid.Drifts (drift : Drift) (grid other : Grid ℚ) : Prop where
  columns : Columns.Drifts drift grid.columns other.columns
  spacing : grid.spacing.Drifts drift other.spacing
  length : grid.columns.centers.length = grid.participants.length
  participants : other.participants = grid.participants
  measure : other.measure = grid.measure

namespace Grid

open Distance

variable {grid other : Grid ℚ} (hgrid : grid.Drifts drift other) {cursor copy : Cursor ℚ}

include hgrid

theorem Drifts.center {column : Nat} (hcolumn : column < grid.participants.length) :
    drift.across.Moves (grid.center column) (other.center column) :=
  Shift.moves_getD hgrid.columns.centers (hgrid.length ▸ hcolumn)

theorem Drifts.boxWidth (column : Nat) : other.boxWidth column = grid.boxWidth column := by
  rw [Grid.boxWidth, Grid.boxWidth, hgrid.columns.same]

theorem Drifts.column (name : String) :
    Agree (fun i j => j = i ∧ i < grid.participants.length) (columnOf grid.participants name)
      (columnOf other.participants name) := by
  rw [hgrid.participants]
  exact agree_columnOf grid.participants name

theorem placeSignal_drifts (signal : Signal) (hcursor : Cursor.Drifts drift cursor copy) :
    Agree (fun placed moved => SignalRow.Drifts drift placed.1 moved.1 ∧
        Cursor.Drifts drift placed.2 moved.2)
      (grid.placeSignal signal cursor) (other.placeSignal signal copy) := by
  have hsize : Columns.signalSize other.measure signal = Columns.signalSize grid.measure signal := by
    rw [hgrid.measure]
  have hband : other.labelBand signal = grid.labelBand signal := by
    rw [labelBand, labelBand, hgrid.measure]
  simp only [placeSignal, hsize, hband, hcursor.index]
  refine (hgrid.column signal.source).bind ?_
  rintro _ source ⟨rfl, hsource⟩
  refine (hgrid.column signal.target).bind ?_
  rintro _ target ⟨rfl, htarget⟩
  have hy := hcursor.y.add (.refl _ (grid.labelBand signal))
  have hbelow := hy.add (hgrid.spacing.rowHeight.map fun row =>
    larger row (grid.labelBand signal + labelGap * 2) - grid.labelBand signal)
  refine .ok ⟨⟨hgrid.center hsource, hgrid.center htarget, hy, rfl⟩, ?_, .some hy, hcursor.opened, rfl⟩
  dsimp only
  split
  · exact hbelow.add (.refl _ _)
  · exact hbelow

theorem bar_drifts (name : String) {top bottom upper lower : ℚ} (htop : drift.down.Moves top upper)
    (hbottom : drift.down.Moves bottom lower) (level : Nat) :
    Agree (ActivationBar.Drifts drift) (grid.bar name top bottom level)
      (other.bar name upper lower level) := by
  refine (hgrid.column name).bind ?_
  rintro _ column ⟨rfl, hcolumn⟩
  exact .ok ⟨((hgrid.center hcolumn).sub (.refl _ _)).add (.refl _ _), htop, hbottom, rfl⟩

theorem placeActivation_drifts (name : String) (starts : Bool)
    (hcursor : Cursor.Drifts drift cursor copy) :
    Agree (fun placed moved => List.Forall₂ (ActivationBar.Drifts drift) placed.1 moved.1 ∧
        Cursor.Drifts drift placed.2 moved.2)
      (grid.placeActivation name starts cursor) (other.placeActivation name starts copy) := by
  have hown := hcursor.opened.get name
  have hopen {bars copies : List ℚ} (hbars : List.Forall₂ drift.down.Moves bars copies) :
      Cursor.Drifts drift { cursor with opened := cursor.opened.set name bars }
        { copy with opened := copy.opened.set name copies } :=
    { hcursor with opened := hcursor.opened.set name hbars }
  simp only [placeActivation]
  cases starts with
  | true => exact .ok ⟨.nil, hopen (.cons (hcursor.y.getD hcursor.lastSignal) hown)⟩
  | false =>
    simp only [Bool.false_eq_true, if_false]
    generalize cursor.opened.get name = own at hown ⊢
    generalize copy.opened.get name = copies at hown ⊢
    cases hown with
    | nil => exact .ok ⟨.nil, hopen .nil⟩
    | @cons start begun outer rest hstart houter =>
      dsimp only
      rw [houter.length_eq]
      refine (bar_drifts hgrid name hstart ?_ rest.length).bind fun bar moved hbar =>
        .ok ⟨.cons hbar .nil, hopen houter⟩
      -- The start and the last signal move together, so both bars end in the same of the two ways.
      have hleast := hstart.add (hgrid.spacing.rowHeight.map (· / 2))
      have hlast := hcursor.lastSignal
      generalize cursor.lastSignal = last at hlast ⊢
      generalize copy.lastSignal = moved at hlast ⊢
      cases hlast with
      | none => exact hleast
      | some hlast => exact hstart.ite_lt hlast hlast hleast

theorem extent?_drifts (operands : Operands) :
    Agree (fun extent same => same = extent ∧ ∀ low high, extent = some (low, high) →
        low < grid.participants.length ∧ high < grid.participants.length)
      (grid.extent? operands) (other.extent? operands) := by
  -- The extent only depends on the participants and on the number of columns, not on their places.
  simp only [extent?]
  rw [hgrid.participants, ← hgrid.columns.centers.length_eq, hgrid.length]
  refine (Agree.self fun involved => operands.involved_lt grid.participants).bind ?_
  rintro _ involved ⟨rfl, hinvolved⟩
  have hcolumns : ∀ column ∈
      (if involved.isEmpty then List.range grid.participants.length else involved),
      column < grid.participants.length := by
    split
    · exact fun column => List.mem_range.1
    · exact hinvolved
  generalize (if involved.isEmpty then List.range grid.participants.length else involved) = columns
    at hcolumns ⊢
  cases columns with
  | nil => exact .ok ⟨rfl, by simp⟩
  | cons first rest =>
    have hmin : (first :: rest).min? = some (rest.foldl min first) := List.min?_cons'
    have hmax : (first :: rest).max? = some (rest.foldl max first) := List.max?_cons'
    refine .ok ⟨rfl, fun low high hextent => ?_⟩
    cases hextent
    exact ⟨hcolumns _ (List.min?_eq_some_iff.1 hmin).1, hcolumns _ (List.max?_eq_some_iff.1 hmax).1⟩

theorem edges_drifts (operands : Operands) (depth : Nat) {inner copies : List (FragmentBox ℚ)}
    (hinner : List.Forall₂ (FragmentBox.Drifts drift) inner copies) :
    Agree (fun sides moved => drift.across.Moves sides.1 moved.1 ∧ drift.across.Moves sides.2 moved.2)
      (grid.edges operands depth inner) (other.edges operands depth copies) := by
  refine (extent?_drifts hgrid operands).bind ?_
  rintro _ extent ⟨rfl, hextent⟩
  cases extent with
  | some columns =>
    obtain ⟨low, high⟩ := columns
    obtain ⟨hlow, hhigh⟩ := hextent low high rfl
    simp only [hgrid.boxWidth]
    exact .ok ⟨((hgrid.center hlow).sub (.refl _ _)).sub (.refl _ _),
      ((hgrid.center hhigh).add (.refl _ _)).add (.refl _ _)⟩
  | none =>
    have hleft := hgrid.spacing.across.add (.refl _ (fragmentPad * ofCount depth))
    have hchildren : List.Forall₂ (FragmentBox.Drifts drift) (inner.filter (·.depth = depth + 1))
        (copies.filter (·.depth = depth + 1)) :=
      List.rel_filter (fun box moved hbox => by simp only [hbox.depth]) hinner
    exact .ok ⟨hleft, Shift.Moves.foldl_larger
      (hchildren.imp fun box moved hbox => (hbox.x.add hbox.width).add (.refl _ _)) hleft⟩

theorem fragmentBox_drifts (kind : String) (operands : Operands) (depth : Nat)
    {top bottom upper lower : ℚ} (htop : drift.down.Moves top upper)
    (hbottom : drift.down.Moves bottom lower) {dividers others : List (Divider ℚ)}
    (hdividers : List.Forall₂ (Divider.Drifts drift) dividers others)
    {inner copies : List (FragmentBox ℚ)}
    (hinner : List.Forall₂ (FragmentBox.Drifts drift) inner copies) :
    Agree (FragmentBox.Drifts drift) (grid.fragmentBox kind operands depth top bottom dividers inner)
      (other.fragmentBox kind operands depth upper lower others copies) := by
  simp only [fragmentBox, hgrid.measure]
  refine (edges_drifts hgrid operands depth hinner).bind ?_
  rintro ⟨left, right⟩ ⟨start, stop⟩ ⟨hleft, hright⟩
  have hend := hright.larger ((hleft.add (.refl _
    (grid.measure (Label.header kind operands.label)).width)).add (.refl _ (tabPad * 2)))
  exact .ok ⟨hleft, htop, hend.between hleft, hbottom.between htop, hdividers, rfl⟩

omit hgrid in
mutual

/-- What is placed for a body moves with the grid and the cursor. -/
theorem placeBody_drifts (hgrid : grid.Drifts drift other) (depth : Nat) :
    ∀ (body : Body) {cursor copy : Cursor ℚ}, Cursor.Drifts drift cursor copy →
      Agree (fun placed moved => Rows.Drifts drift placed.1 moved.1 ∧
          Cursor.Drifts drift placed.2 moved.2)
        (grid.placeBody depth body cursor) (other.placeBody depth body copy)
  | .empty, _, _, hcursor => .ok ⟨⟨.nil, .nil, .nil⟩, hcursor⟩
  | .signal message rest, _, _, hcursor => by
    rw [placeBody, placeBody]
    refine (placeSignal_drifts hgrid message hcursor).bind ?_
    rintro ⟨row, middle⟩ ⟨moved, inside⟩ ⟨hrow, hmiddle⟩
    refine (placeBody_drifts hgrid depth rest hmiddle).bind ?_
    rintro ⟨rows, after⟩ ⟨others, last⟩ ⟨hrows, hafter⟩
    exact .ok ⟨.append ⟨.cons hrow .nil, .nil, .nil⟩ hrows, hafter⟩
  | .activation name starts rest, _, _, hcursor => by
    rw [placeBody, placeBody]
    refine (placeActivation_drifts hgrid name starts hcursor).bind ?_
    rintro ⟨bars, middle⟩ ⟨moved, inside⟩ ⟨hbars, hmiddle⟩
    refine (placeBody_drifts hgrid depth rest hmiddle).bind ?_
    rintro ⟨rows, after⟩ ⟨others, last⟩ ⟨hrows, hafter⟩
    exact .ok ⟨.append ⟨.nil, hbars, .nil⟩ hrows, hafter⟩
  | .fragment kind operands rest, _, _, hcursor => by
    rw [placeBody, placeBody]
    have hinside := hcursor.moved (hcursor.y.add (.refl _ fragmentHeader))
    refine (placeOperands_drifts hgrid (depth + 1) true operands hinside).bind ?_
    rintro ⟨dividers, inner, middle⟩ ⟨others, copies, inside⟩ ⟨hdividers, hinner, hmiddle⟩
    have hbottom := hmiddle.y.add (.refl _ fragmentBottom)
    refine (fragmentBox_drifts hgrid kind operands depth hcursor.y hbottom hdividers
      hinner.boxes).bind fun box moved hbox => ?_
    refine (placeBody_drifts hgrid depth rest (hmiddle.moved hbottom)).bind ?_
    rintro ⟨rows, after⟩ ⟨below, last⟩ ⟨hrows, hafter⟩
    exact .ok ⟨.append { hinner with boxes := .cons hbox hinner.boxes } hrows, hafter⟩

/-- What is placed for operands moves with the grid and the cursor. -/
theorem placeOperands_drifts (hgrid : grid.Drifts drift other) (depth : Nat) (isFirst : Bool) :
    ∀ (operands : Operands) {cursor copy : Cursor ℚ}, Cursor.Drifts drift cursor copy →
      Agree (fun placed moved => List.Forall₂ (Divider.Drifts drift) placed.1 moved.1 ∧
          Rows.Drifts drift placed.2.1 moved.2.1 ∧ Cursor.Drifts drift placed.2.2 moved.2.2)
        (grid.placeOperands depth isFirst operands cursor)
        (other.placeOperands depth isFirst operands copy)
  | .none, _, _, hcursor => .ok ⟨.nil, ⟨.nil, .nil, .nil⟩, hcursor⟩
  | .cons guard body rest, cursor, copy, hcursor => by
    rw [placeOperands, placeOperands]
    have hstart : drift.down.Moves (if isFirst then cursor.y else cursor.y + dividerHeight)
        (if isFirst then copy.y else copy.y + dividerHeight) := by
      cases isFirst with
      | true => exact hcursor.y
      | false => exact hcursor.y.add (.refl _ _)
    have hdivider : List.Forall₂ (Divider.Drifts drift)
        (if isFirst then [] else [⟨cursor.y, guard⟩]) (if isFirst then [] else [⟨copy.y, guard⟩]) := by
      cases isFirst with
      | true => exact .nil
      | false => exact .cons ⟨hcursor.y, rfl⟩ .nil
    refine (placeBody_drifts hgrid depth body (hcursor.moved hstart)).bind ?_
    rintro ⟨rows, middle⟩ ⟨moved, inside⟩ ⟨hrows, hmiddle⟩
    refine (placeOperands_drifts hgrid depth false rest hmiddle).bind ?_
    rintro ⟨dividers, below, after⟩ ⟨others, lower, last⟩ ⟨hdividers, hbelow, hafter⟩
    exact .ok ⟨List.rel_append hdivider hdividers, hrows.append hbelow, hafter⟩

end

theorem closeBars_drifts (name : String) {y height : ℚ} (hy : drift.down.Moves y height)
    {starts copies : List ℚ} (hstarts : List.Forall₂ drift.down.Moves starts copies) :
    Agree (List.Forall₂ (ActivationBar.Drifts drift)) (grid.closeBars name y starts)
      (other.closeBars name height copies) := by
  induction hstarts with
  | nil => exact .ok .nil
  | cons hstart houter ih =>
    rw [closeBars, closeBars, houter.length_eq]
    refine ih.bind fun others copies hothers => ?_
    have hstop := (hy.sub (hgrid.spacing.rowHeight.map (· / 2))).larger hstart
    refine (bar_drifts hgrid name hstart hstop _).bind fun bar moved hbar => ?_
    exact .ok (List.rel_append hothers (.cons hbar .nil))

theorem closeAllBars_drifts {y height : ℚ} (hy : drift.down.Moves y height)
    {opened copies : OpenBars ℚ} (hopened : OpenBars.Drifts drift.down opened copies) :
    Agree (List.Forall₂ (ActivationBar.Drifts drift)) (grid.closeAllBars y opened)
      (other.closeAllBars height copies) := by
  induction hopened with
  | nil => exact .ok .nil
  | @cons entry copy _ _ hentry _ ih =>
    obtain ⟨name, starts⟩ := entry
    obtain ⟨_, moved⟩ := copy
    obtain ⟨rfl, hstarts⟩ := hentry
    rw [closeAllBars, closeAllBars]
    refine (closeBars_drifts hgrid _ hy hstarts).bind fun own copies hown => ?_
    refine ih.bind fun others below hothers => ?_
    exact .ok (List.rel_append hown hothers)

theorem boxTop_drifts (heading : Option (String × Size ℚ)) :
    drift.down.Moves (grid.boxTop heading) (other.boxTop heading) := by
  cases heading with
  | none => exact hgrid.spacing.down
  | some text => exact hgrid.spacing.down.add (.refl _ _)

theorem lineTop_drifts (heading : Option (String × Size ℚ)) :
    drift.down.Moves (grid.lineTop heading) (other.lineTop heading) := by
  rw [lineTop, lineTop, hgrid.measure, hgrid.participants]
  exact (boxTop_drifts hgrid heading).add (.refl _ _)

end Grid

namespace Layout

open Distance

theorem forall₂_mapIdx {A B C : Type} {R : B → C → Prop} {f : Nat → A → B} {g : Nat → A → C}
    (items : List A) (hitems : ∀ i < items.length, ∀ item, R (f i item) (g i item)) :
    List.Forall₂ R (items.mapIdx f) (items.mapIdx g) := by
  refine List.forall₂_iff_get.2 ⟨by simp, fun i hfirst hsecond => ?_⟩
  simpa using hitems i (by simpa using hfirst) _

section Placed

variable {grid other : Grid ℚ} (hgrid : grid.Drifts drift other)

include hgrid

theorem rightEnd_drifts (heading : Option (String × Size ℚ)) {boxes copies : List (FragmentBox ℚ)}
    (hboxes : List.Forall₂ (FragmentBox.Drifts drift) boxes copies) :
    drift.across.Moves (grid.rightEnd heading boxes) (other.rightEnd heading copies) := by
  have hright := Shift.Moves.foldl_larger (hboxes.imp fun box moved hbox => hbox.x.add hbox.width)
    hgrid.columns.right
  cases heading with
  | none => exact hright
  | some text => exact hright.larger (hgrid.spacing.across.add (.refl _ _))

theorem assembled_drifts (heading : Option (String × Size ℚ)) {rows moved : Rows ℚ}
    (hrows : Rows.Drifts drift rows moved) {after last : Cursor ℚ}
    (hafter : Cursor.Drifts drift after last) {unclosed others : List (ActivationBar ℚ)}
    (hunclosed : List.Forall₂ (ActivationBar.Drifts drift) unclosed others) :
    Layout.Drifts drift (assembled grid heading rows after unclosed)
      (assembled other heading moved last others) := by
  have htop := Grid.boxTop_drifts hgrid heading
  have hline := Grid.lineTop_drifts hgrid heading
  have hbottom := hafter.y.add (.refl _ footerGap)
  have hwidth := (rightEnd_drifts hgrid heading hrows.boxes).add_moves hgrid.spacing.across
  refine ⟨hwidth, hbottom.add_moves hgrid.spacing.down, ?_, ?_, ?_, hrows.signals,
    List.rel_append hrows.bars hunclosed, hrows.boxes⟩
  · cases heading with
    | none => exact .none
    | some text => exact .some ⟨hwidth.half text.2.width, hgrid.spacing.down, rfl⟩
  · simp only [assembled, hgrid.boxWidth, hgrid.measure, hgrid.participants]
    exact forall₂_mapIdx grid.participants fun i hi participant => ⟨hgrid.center hi, htop, rfl⟩
  · simp only [assembled, hgrid.participants]
    exact forall₂_mapIdx grid.participants fun i hi participant =>
      ⟨hgrid.center hi, hline, hbottom, rfl⟩

theorem ofRows_drifts (content : Body) (heading : Option (String × Size ℚ)) :
    Agree (Layout.Drifts drift) (ofRows grid content heading) (ofRows other content heading) := by
  have hstart : Cursor.Drifts drift { y := grid.lineTop heading + headerGap }
      { y := other.lineTop heading + headerGap } :=
    ⟨(Grid.lineTop_drifts hgrid heading).add (.refl _ _), .none, .nil, rfl⟩
  rw [ofRows_eq, ofRows_eq]
  refine (Grid.placeBody_drifts hgrid 0 content hstart).bind ?_
  rintro ⟨rows, after⟩ ⟨moved, last⟩ ⟨hrows, hafter⟩
  refine (Grid.closeAllBars_drifts hgrid hafter.y hafter.opened).bind fun unclosed others hunclosed => ?_
  exact .ok (assembled_drifts hgrid heading hrows hafter hunclosed)

end Placed

theorem ofTitle_drifts {spacing moved : Spacing ℚ} (hspacing : spacing.Drifts drift moved)
    (heading : String × Size ℚ) :
    Layout.Drifts drift (ofTitle spacing (some heading)) (ofTitle moved (some heading)) :=
  ⟨hspacing.across.padded _, hspacing.down.padded _, .some ⟨hspacing.across, hspacing.down, rfl⟩, .nil,
    .nil, .nil, .nil, .nil⟩

/-- The layout of a diagram moves with the padding, unless there is nothing in it. -/
theorem ofDiagram_agree (measure : String → Size ℚ) {spacing moved : Spacing ℚ}
    (hspacing : spacing.Drifts drift moved) {diagram : Diagram}
    (hfilled : diagram.participants ≠ [] ∨ diagram.content.body ≠ .empty ∨
      nonempty? diagram.title ≠ none) :
    Agree (Layout.Drifts drift) (ofDiagram measure spacing diagram) (ofDiagram measure moved diagram) := by
  simp only [ofDiagram]
  split
  · next hempty =>
    simp only [Bool.and_eq_true, List.isEmpty_iff, decide_eq_true_eq] at hempty
    cases htitle : nonempty? diagram.title with
    | none => simp [hempty, htitle] at hfilled
    | some title => exact .ok (ofTitle_drifts hspacing (title, measure title))
  · refine (Columns.ofDiagram_agree measure hspacing diagram).bind ?_
    rintro columns others ⟨hcolumns, hlength⟩
    have hgrid : Grid.Drifts drift ⟨diagram.participants, columns, spacing, measure⟩
        ⟨diagram.participants, others, moved, measure⟩ := ⟨hcolumns, hspacing, hlength, rfl, rfl⟩
    exact ofRows_drifts hgrid diagram.content.body _

/-- Every distance acts only where it should. The padding moves everything to the right and down and is
    added on both sides of the layout, the gap between participants changes nothing along the vertical,
    and the height of rows nothing along the horizontal. -/
theorem ofDiagram_drifts (measure : String → Size ℚ) (options : Options ℚ) {diagram : Diagram}
    (hrefers : ∀ name ∈ diagram.content.body.named, name ∈ diagram.names)
    (hfilled : diagram.participants ≠ [] ∨ diagram.content.body ≠ .empty ∨
      nonempty? diagram.title ≠ none) :
    ∃ layout, ofDiagram measure (Spacing.ofOptions options) diagram = .ok layout ∧
      (∀ distance, ∃ other,
        ofDiagram measure (Spacing.ofOptions { options with
          padding := some ((Spacing.ofOptions options).padding + distance) }) diagram = .ok other ∧
        Layout.Drifts ⟨some distance, some distance⟩ layout other) ∧
      (∀ participantGap, ∃ other,
        ofDiagram measure (Spacing.ofOptions { options with participantGap }) diagram = .ok other ∧
        Layout.Drifts ⟨none, some 0⟩ layout other) ∧
      ∀ rowHeight, ∃ other,
        ofDiagram measure (Spacing.ofOptions { options with rowHeight }) diagram = .ok other ∧
        Layout.Drifts ⟨some 0, none⟩ layout other := by
  obtain ⟨layout, hlayout⟩ := ofDiagram_of_listed measure (Spacing.ofOptions options) hrefers
  have hdrifts {drift : Drift} {moved : Spacing ℚ}
      (hspacing : (Spacing.ofOptions options).Drifts drift moved) :
      ∃ other, ofDiagram measure moved diagram = .ok other ∧ Layout.Drifts drift layout other :=
    (ofDiagram_agree measure hspacing hfilled).of_ok hlayout
  refine ⟨layout, hlayout, fun distance => ?_, fun participantGap => ?_, fun rowHeight => ?_⟩
  · exact hdrifts ⟨Shift.moves_by _ _, Shift.moves_by _ _, .refl _ _, .refl _ _⟩
  · exact hdrifts ⟨nofun, Shift.moves_zero _, nofun, .refl _ _⟩
  · exact hdrifts ⟨Shift.moves_zero _, nofun, .refl _ _, nofun⟩

theorem ofDiagram_drifts_fragment :
    let content : Body :=
      .signal ⟨"A", "B", "hi", .solid, true⟩
        (.fragment "loop" (.cons "n" (.activation "B" true (.signal ⟨"B", "B", "", .dashed, true⟩ .empty))
          .none) .empty)
    let diagram : Diagram :=
      { title := some "T", participants := [⟨"A", "A"⟩, ⟨"B", "B"⟩], content := ⟨"", content⟩ }
    (∀ name ∈ diagram.content.body.named, name ∈ diagram.names) ∧
      (diagram.participants ≠ [] ∨ diagram.content.body ≠ .empty ∨ nonempty? diagram.title ≠ none) ∧
      ∃ layout padded apart low,
        ofDiagram (evenSize 7 15) ⟨30, 140, 50⟩ diagram = .ok layout ∧
          ofDiagram (evenSize 7 15) ⟨35, 140, 50⟩ diagram = .ok padded ∧
          ofDiagram (evenSize 7 15) ⟨30, 200, 50⟩ diagram = .ok apart ∧
          ofDiagram (evenSize 7 15) ⟨30, 140, 20⟩ diagram = .ok low ∧
          Layout.Drifts ⟨some 5, some 5⟩ layout padded ∧ padded.width = layout.width + 10 ∧
          Layout.Drifts ⟨none, some 0⟩ layout apart ∧ apart.height = layout.height ∧
          Layout.Drifts ⟨some 0, none⟩ layout low ∧ low.width = layout.width := by
  intro content diagram
  let options : Options ℚ := { rowHeight := some 50 }
  have hrefers : ∀ name ∈ diagram.content.body.named, name ∈ diagram.names := by decide
  have hfilled : diagram.participants ≠ [] ∨ diagram.content.body ≠ .empty ∨
      nonempty? diagram.title ≠ none := .inl (List.cons_ne_nil _ _)
  obtain ⟨layout, hlayout, hpadding, hgap, hrow⟩ :=
    ofDiagram_drifts (evenSize 7 15) options hrefers hfilled
  obtain ⟨padded, hpadded, hmoved⟩ := hpadding 5
  obtain ⟨apart, hapart, hwider⟩ := hgap (some 200)
  obtain ⟨low, hlow, hlower⟩ := hrow (some 20)
  have hspacing : Spacing.ofOptions { options with
      padding := some ((Spacing.ofOptions options).padding + 5) } = ⟨35, 140, 50⟩ := by
    norm_num [Spacing.ofOptions, options]
  rw [hspacing] at hpadded
  refine ⟨hrefers, hfilled, layout, padded, apart, low, hlayout, hpadded, hapart, hlow, hmoved, ?_,
    hwider, ?_, hlower, ?_⟩
  · rw [hmoved.width (2 * 5) rfl]
    norm_num
  · rw [hwider.height (2 * 0) rfl]
    norm_num
  · rw [hlower.width (2 * 0) rfl]
    norm_num

end Layout

end SequenceChart
