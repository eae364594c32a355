import SequenceChart.Font
import SequenceChart.Proofs.Drawing.Corners
import SequenceChart.Proofs.Layout.Composed
import SequenceChart.Proofs.Layout.Traced

namespace SequenceChart

open Distance

namespace Layout

/-- A point lies on a layout, and keeps a distance from its left and right end. -/
structure Holds (layout : Layout ℚ) (margin : ℚ) (point : Point ℚ) : Prop where
  left : margin ≤ point.x
  right : point.x ≤ layout.width - margin
  top : 0 ≤ point.y
  bottom : point.y ≤ layout.height

/-- A box lies on a layout, and keeps a distance from its left and right end. -/
structure HoldsBox (layout : Layout ℚ) (margin : ℚ) (corner : Point ℚ) (size : Size ℚ) : Prop where
  width : 0 ≤ size.width
  height : 0 ≤ size.height
  start : layout.Holds margin corner
  stop : layout.Holds margin (corner.offset size.width size.height)

theorem holdsBox {layout : Layout ℚ} {margin x y width height : ℚ} (hx : margin ≤ x)
    (hwidth : 0 ≤ width) (hright : x + width ≤ layout.width - margin) (hy : 0 ≤ y)
    (hheight : 0 ≤ height) (hbottom : y + height ≤ layout.height) :
    layout.HoldsBox margin ⟨x, y⟩ ⟨width, height⟩ := by
  refine ⟨hwidth, hheight, ⟨hx, ?_, hy, ?_⟩, ⟨?_, hright, ?_, hbottom⟩⟩
  all_goals
    simp only [Point.offset]
    linarith

/-- A line across a held box is held. -/
theorem HoldsBox.across {layout : Layout ℚ} {margin : ℚ} {corner : Point ℚ} {size : Size ℚ}
    (hholds : layout.HoldsBox margin corner size) {y : ℚ} (habove : corner.y ≤ y)
    (hbelow : y ≤ corner.y + size.height) :
    layout.Holds margin ⟨corner.x, y⟩ ∧ layout.Holds margin ⟨corner.x + size.width, y⟩ := by
  obtain ⟨_, _, hstart, hstop⟩ := hholds
  have htop := hstart.top.trans habove
  have hbottom := hbelow.trans hstop.bottom
  exact ⟨⟨hstart.left, hstart.right, htop, hbottom⟩, hstop.left, hstop.right, htop, hbottom⟩

/-- A layout has room for what is drawn. Boxes keep the padding on the left and on the right. Lines
    and labels only stay on the canvas, and a high label beside a loop may even go below its end. -/
structure OnCanvas (layout : Layout ℚ) (padding : ℚ) : Prop where
  title : ∀ title ∈ layout.title,
    layout.HoldsBox padding ⟨title.x, title.y⟩ ⟨title.width, title.height⟩ ∧
      ∀ box ∈ layout.participants, title.y + title.height < box.y
  participants : ∀ box ∈ layout.participants,
    layout.HoldsBox padding ⟨box.x - box.width / 2, box.y⟩ ⟨box.width, box.height⟩
  fragments : ∀ box ∈ layout.fragments,
    layout.HoldsBox padding ⟨box.x, box.y⟩ ⟨box.width, box.height⟩ ∧
      ∀ divider ∈ box.dividers, layout.Holds padding ⟨box.x, divider.y⟩ ∧
        layout.Holds padding ⟨box.x + box.width, divider.y⟩ ∧
        box.y ≤ divider.y ∧ divider.y ≤ box.y + box.height
  lifelines : List.Forall₂ (fun box line => line.participant = box.name ∧ line.x = box.x ∧
    line.top = box.y + box.height) layout.participants layout.lifelines
  ends : ∀ line ∈ layout.lifelines, layout.Holds 0 ⟨line.x, line.top⟩ ∧
    layout.Holds 0 ⟨line.x, line.bottom⟩ ∧ line.top < line.bottom ∧
    ∀ row ∈ layout.signals, row.y < line.bottom
  lines : ∀ row ∈ layout.signals, ∀ palette, ∀ line ∈ Drawing.signalLines palette row,
    ∀ point ∈ line.corners, layout.Holds 0 point
  labels : ∀ row ∈ layout.signals, row.isSelf = false → row.labelWidth ≤ |row.endX - row.startX| ∧
    ∀ palette, ∀ point ∈ (Drawing.signalLabel palette row).corners, layout.Holds 0 point
  loopLabels : ∀ row ∈ layout.signals, row.isSelf = true →
    ∀ palette, ∀ point ∈ (Drawing.signalLabel palette row).corners,
      0 ≤ point.x ∧ point.x ≤ layout.width

theorem boxHeightOf_nonneg (measure : String → Size ℚ) (participants : List Participant) :
    0 ≤ boxHeightOf measure participants := by
  cases participants with
  | nil => exact le_rfl
  | cons first rest =>
    have hleast := (foldl_larger_ge (fun participant : Participant =>
      (measure participant.label).height + boxMarginY) boxHeight (first :: rest)).1
    simp only [boxHeight] at hleast
    exact le_trans (by norm_num) hleast

theorem ofTitle_onCanvas {spacing : Spacing ℚ} (hpadding : 0 ≤ spacing.padding)
    {heading : Option (String × Size ℚ)}
    (hsize : ∀ text ∈ heading, 0 ≤ text.2.width ∧ 0 ≤ text.2.height) :
    (ofTitle spacing heading).OnCanvas spacing.padding := by
  cases heading with
  | none => constructor <;> simp [ofTitle]
  | some text =>
    obtain ⟨hwidth, hheight⟩ := hsize text rfl
    constructor
    case title =>
      rintro title ⟨rfl⟩
      refine ⟨holdsBox le_rfl hwidth ?_ hpadding hheight ?_, List.forall_mem_nil _⟩
      all_goals
        simp only [ofTitle]
        linarith
    all_goals simp [ofTitle]

/-- A layout is composed of rows and boxes in columns with enough room, and no size is negative. -/
structure Built (layout : Layout ℚ) (grid : Grid ℚ) (diagram : Diagram) (rows : Rows ℚ)
    (spots : List Spot) (after : Cursor ℚ) : Prop where
  composed : layout.Composed grid (diagram.heading grid.measure) rows after
  shows : Grid.Shows rows (diagram.content.body.items 0) spots
  places : grid.Places { y := grid.lineTop (diagram.heading grid.measure) + headerGap } spots after
  roomy : grid.columns.Roomy grid.measure grid.spacing.padding
    (fragmentPad * ofCount diagram.content.body.depth) diagram
  participants : grid.participants = diagram.participants
  refers : grid.Lists diagram.content.body.named
  padding : 0 ≤ grid.spacing.padding
  widths : ∀ text, 0 ≤ (grid.measure text).width
  heights : ∀ text, 0 ≤ (grid.measure text).height

namespace Built

variable {layout : Layout ℚ} {grid : Grid ℚ} {diagram : Diagram} {rows : Rows ℚ} {spots : List Spot}
  {after : Cursor ℚ}

/-- From top to bottom there are the title, the boxes of the participants, what is placed below them,
    the ends of the lifelines and the padding. -/
theorem levels (hbuilt : layout.Built grid diagram rows spots after) :
    0 ≤ grid.boxTop (diagram.heading grid.measure) ∧
      0 ≤ boxHeightOf grid.measure grid.participants ∧
      grid.boxTop (diagram.heading grid.measure) + boxHeightOf grid.measure grid.participants =
        grid.lineTop (diagram.heading grid.measure) ∧
      grid.lineTop (diagram.heading grid.measure) + 10 ≤ after.y ∧
      after.y + 10 + grid.spacing.padding = layout.height := by
  refine ⟨?_, boxHeightOf_nonneg _ _, rfl, hbuilt.places.le, hbuilt.composed.height.symm⟩
  have hpadding := hbuilt.padding
  cases hheading : diagram.heading grid.measure with
  | none => exact hpadding
  | some text =>
    obtain ⟨title, _, rfl⟩ := Option.map_eq_some_iff.1 hheading
    have hheight := hbuilt.heights title
    simp only [Grid.boxTop, titleGap]
    linarith

/-- The column of a participant lies between the paddings. -/
theorem column (hbuilt : layout.Built grid diagram rows spots after) {i : Nat}
    (hi : i < grid.participants.length) :
    grid.spacing.padding ≤ grid.columns.leftEdge i ∧
      grid.columns.leftEdge i ≤ grid.center i ∧ grid.center i ≤ grid.columns.rightEdge i ∧
      grid.columns.rightEdge i ≤ layout.width - grid.spacing.padding := by
  rw [hbuilt.participants] at hi
  have hbox := hbuilt.roomy.boxes i
  have hleft := hbuilt.roomy.left i hi
  have hright := hbuilt.roomy.right i hi
  have hcolumns := hbuilt.composed.columns
  have hdepth : (0 : ℚ) ≤ diagram.content.body.depth := Nat.cast_nonneg _
  simp only [Columns.leftEdge, Columns.rightEdge, Grid.center, fragmentPad, ofCount_eq_cast]
    at hleft hright ⊢
  refine ⟨?_, ?_, ?_, ?_⟩ <;> linarith

theorem title (hbuilt : layout.Built grid diagram rows spots after) {title : TitleBox ℚ}
    (htitle : title ∈ layout.title) :
    layout.HoldsBox grid.spacing.padding ⟨title.x, title.y⟩ ⟨title.width, title.height⟩ ∧
      title.y + title.height < grid.boxTop (diagram.heading grid.measure) := by
  obtain ⟨hboxes, hboxHeight, hlines, hrows, hend⟩ := hbuilt.levels
  have hpadding := hbuilt.padding
  rw [hbuilt.composed.title, Option.mem_map] at htitle
  obtain ⟨text, htext, rfl⟩ := htitle
  have hfitting := hbuilt.composed.fitting text htext
  obtain ⟨name, _, rfl⟩ := Option.map_eq_some_iff.1 htext
  rw [htext] at hlines hrows ⊢
  have hwidth := hbuilt.widths name
  have hheight := hbuilt.heights name
  simp only [Grid.boxTop, titleGap] at hlines ⊢
  refine ⟨holdsBox ?_ hwidth ?_ hpadding hheight ?_, ?_⟩ <;> linarith

theorem participant (hbuilt : layout.Built grid diagram rows spots after) {box : ParticipantBox ℚ}
    (hbox : box ∈ layout.participants) :
    layout.HoldsBox grid.spacing.padding ⟨box.x - box.width / 2, box.y⟩ ⟨box.width, box.height⟩ ∧
      box.y = grid.boxTop (diagram.heading grid.measure) := by
  obtain ⟨hboxes, hboxHeight, hlines, hrows, hend⟩ := hbuilt.levels
  have hpadding := hbuilt.padding
  rw [hbuilt.composed.participants, List.mem_mapIdx] at hbox
  obtain ⟨i, hi, rfl⟩ := hbox
  obtain ⟨hleft, _, _, hright⟩ := hbuilt.column hi
  simp only [Columns.leftEdge, Columns.rightEdge] at hleft hright
  refine ⟨holdsBox hleft (hbuilt.roomy.boxes i) ?_ hboxes hboxHeight ?_, rfl⟩
  · simp only [Grid.center, Grid.boxWidth]
    linarith
  · linarith

/-- The box of a fragment begins on the left of the columns by no more than the borders of fragments
    need, and so not on the left of the padding. -/
theorem fragment_left (hbuilt : layout.Built grid diagram rows spots after) {fragment : Fragment}
    (hfragment : fragment ∈ diagram.content.body.fragments 0) {box : FragmentBox ℚ}
    (hframes : grid.Frames fragment box) : grid.spacing.padding ≤ box.x := by
  obtain ⟨hnamed, hdepth⟩ := Body.inside diagram.content.body hfragment
  obtain ⟨right, ⟨low, _, hlow, _, hleft, _⟩ | ⟨_, hleft⟩, _⟩ := hframes.spans
  · have hcolumn := Grid.lt_of_mem_reach (fun name hname => hbuilt.refers name (hnamed hname)) hlow.1
    have hedge := hbuilt.roomy.left low (hbuilt.participants ▸ hcolumn)
    have hinset : (fragment.operands.depth : ℚ) + 1 ≤ diagram.content.body.depth := mod_cast hdepth
    simp only [fragmentPad, ofCount_eq_cast, Nat.cast_succ] at hleft hedge
    linarith
  · have hcast : (0 : ℚ) ≤ fragment.depth := Nat.cast_nonneg _
    simp only [fragmentPad, ofCount_eq_cast] at hleft
    linarith

theorem fragment (hbuilt : layout.Built grid diagram rows spots after) {box : FragmentBox ℚ}
    (hbox : box ∈ layout.fragments) :
    layout.HoldsBox grid.spacing.padding ⟨box.x, box.y⟩ ⟨box.width, box.height⟩ ∧
      ∀ divider ∈ box.dividers, box.y ≤ divider.y ∧ divider.y ≤ box.y + box.height := by
  obtain ⟨hboxes, hboxHeight, hlines, hrows, hend⟩ := hbuilt.levels
  have hpadding := hbuilt.padding
  rw [hbuilt.composed.fragments] at hbox
  have hright := hbuilt.composed.boxes box hbox
  rw [← hbuilt.shows.boxes] at hbox
  obtain ⟨fragment, hspot⟩ := Spot.mem_filterMap_box?.1 hbox
  have hframes : grid.Frames fragment box := hbuilt.places.fits _ hspot
  have hfragment : fragment ∈ diagram.content.body.fragments 0 := by
    rw [← Body.filterMap_items_fragment?, ← hbuilt.shows.items, ← Spot.map_fst_filterMap_fragmentBox?]
    exact List.mem_map.2 ⟨(fragment, box), Spot.mem_filterMap_fragmentBox?.2 hspot, rfl⟩
  obtain ⟨htop, hbottom⟩ := hbuilt.places.between _ hspot
  obtain ⟨front, rest, hsplit⟩ := List.append_of_mem hspot
  obtain ⟨operands, back, _, _, hencloses, _⟩ := hbuilt.places.stacked front fragment box rest hsplit
  have hheight := hencloses.height
  have hdivided := hencloses.divided
  -- The header keeps the width from being negative, whatever columns the fragment extends over.
  obtain ⟨right, _, hwidth⟩ := hframes.spans
  have hheader := (le_max_right right _).trans_eq hwidth.symm
  have hheaderWidth := hbuilt.widths (Label.header fragment.kind fragment.operands.label)
  simp only [Grid.headerEnd, tabPad] at hheader
  simp only [Spot.top, Spot.bottom, FragmentBox.bottom, headerGap] at htop hbottom
  simp only [fragmentHeader, fragmentBottom] at hheight
  have hdividers : ∀ divider ∈ box.dividers, box.y ≤ divider.y ∧ divider.y ≤ box.y + box.height := by
    intro divider hdivider
    obtain ⟨habove, hbelow⟩ := hdivided.between divider hdivider
    simp only [fragmentHeader, fragmentBottom, dividerHeight, FragmentBox.bottom] at habove hbelow
    constructor <;> linarith
  refine ⟨holdsBox (hbuilt.fragment_left hfragment hframes) ?_ ?_ ?_ ?_ ?_, hdividers⟩ <;> linarith

theorem row (hbuilt : layout.Built grid diagram rows spots after) {row : SignalRow ℚ}
    (hrow : row ∈ layout.signals) : grid.Carries row ∧ row.message ∈ diagram.signals ∧
      grid.lineTop (diagram.heading grid.measure) + 10 ≤ row.top ∧ row.bottom ≤ after.y := by
  rw [hbuilt.composed.signals, ← hbuilt.shows.signals] at hrow
  have hspot := Spot.mem_filterMap_row?.1 hrow
  obtain ⟨htop, hbottom⟩ := hbuilt.places.between _ hspot
  refine ⟨hbuilt.places.fits _ hspot, ?_, htop, hbottom⟩
  rw [Diagram.signals, ← Body.filterMap_items_signal?, ← hbuilt.shows.items,
    ← Spot.map_message_filterMap_row?]
  exact List.mem_map_of_mem hrow

theorem center (hbuilt : layout.Built grid diagram rows spots after) {name : String}
    (hname : name ∈ grid.participants.map Participant.name) :
    0 ≤ grid.center (columnIn grid.participants name) ∧
      grid.center (columnIn grid.participants name) ≤ layout.width := by
  have hpadding := hbuilt.padding
  obtain ⟨hleft, hcenter, hother, hright⟩ := hbuilt.column (columnIn_lt hname)
  constructor <;> linarith

theorem row_ends (hbuilt : layout.Built grid diagram rows spots after) {row : SignalRow ℚ}
    (hrow : row ∈ layout.signals) : (0 ≤ row.startX ∧ row.startX ≤ layout.width) ∧
      0 ≤ row.endX ∧ row.endX ≤ layout.width := by
  obtain ⟨hcarries, _⟩ := hbuilt.row hrow
  exact ⟨hcarries.startX ▸ hbuilt.center hcarries.source, hcarries.endX ▸ hbuilt.center hcarries.target⟩

/-- The columns of a signal to another participant are far enough apart for its label. -/
theorem label_fits (hbuilt : layout.Built grid diagram rows spots after) {row : SignalRow ℚ}
    (hrow : row ∈ layout.signals) (hself : row.isSelf = false) :
    row.labelWidth ≤ |row.endX - row.startX| := by
  obtain ⟨hcarries, hmessage, _, _⟩ := hbuilt.row hrow
  have hne : row.source ≠ row.target := fun heq => Bool.eq_false_iff.1 hself (hcarries.isSelf_iff.2 heq)
  have happart := hbuilt.roomy.apart row.message hmessage hne
  rw [← hcarries.size, ← hbuilt.participants] at happart
  rw [hcarries.startX, hcarries.endX]
  simp only [Columns.centerOf, SignalRow.message, labelPad] at happart
  simp only [Grid.center]
  linarith

/-- The label beside a loop ends on the left of the border of every fragment around it. -/
theorem loop_fits (hbuilt : layout.Built grid diagram rows spots after) {row : SignalRow ℚ}
    (hrow : row ∈ layout.signals) (hself : row.isSelf = true) : 0 ≤ row.labelWidth ∧
      row.startX + loopWidth + labelGap + row.labelWidth ≤ layout.width := by
  obtain ⟨hcarries, hmessage, _, _⟩ := hbuilt.row hrow
  have hwidth := Columns.signalSize_width_nonneg hbuilt.widths row.message
  have hloop := hbuilt.roomy.loops row.message hmessage (hcarries.isSelf_iff.1 hself)
  have hpadding := hbuilt.padding
  have hcolumns := hbuilt.composed.columns
  have hdepth : (0 : ℚ) ≤ diagram.content.body.depth := Nat.cast_nonneg _
  rw [← hcarries.size] at hwidth hloop
  rw [← hbuilt.participants] at hloop
  rw [hcarries.startX]
  simp only [Columns.centerOf, SignalRow.message, labelPad, fragmentPad, ofCount_eq_cast] at hloop
  simp only [Grid.center]
  exact ⟨hwidth, by linarith⟩

theorem row_levels (hbuilt : layout.Built grid diagram rows spots after) {row : SignalRow ℚ}
    (hrow : row ∈ layout.signals) : 0 ≤ row.top ∧ row.top ≤ row.y - labelGap ∧ row.y < after.y ∧
      row.bottom ≤ layout.height := by
  obtain ⟨hcarries, _, htop, hbottom⟩ := hbuilt.row hrow
  obtain ⟨hboxes, hboxHeight, hlines, hrows, hend⟩ := hbuilt.levels
  have hpadding := hbuilt.padding
  have hlabel := hcarries.labelHeight_nonneg hbuilt.heights
  refine ⟨by linarith, ?_, row.y_lt_bottom.trans_le hbottom, by linarith⟩
  simp only [SignalRow.top]
  linarith

theorem lines (hbuilt : layout.Built grid diagram rows spots after) {row : SignalRow ℚ}
    (hrow : row ∈ layout.signals) {palette : Palette ℚ} {line : Call ℚ}
    (hline : line ∈ Drawing.signalLines palette row) {point : Point ℚ} (hpoint : point ∈ line.corners) :
    layout.Holds 0 point := by
  obtain ⟨hx, hy⟩ := Drawing.mem_corners_signalLines hline hpoint
  obtain ⟨hstart, hend⟩ := hbuilt.row_ends hrow
  obtain ⟨htop, hline, _, hbottom⟩ := hbuilt.row_levels hrow
  simp only [labelGap] at hline
  have hsides : 0 ≤ point.x ∧ point.x ≤ layout.width := by
    obtain hx | hx | ⟨hself, hx⟩ := hx
    · rwa [hx]
    · rwa [hx]
    · obtain ⟨hlabel, hright⟩ := hbuilt.loop_fits hrow hself
      simp only [loopWidth, labelGap] at hx hright
      constructor <;> linarith
  have hlevels : row.y ≤ point.y ∧ point.y ≤ row.bottom := by
    obtain hy | ⟨hself, hy⟩ := hy
    · rw [hy]
      exact ⟨le_rfl, row.y_lt_bottom.le⟩
    · simp only [SignalRow.bottom, hself, if_true, labelGap, loopRow, loopHeight] at hy ⊢
      constructor <;> linarith
  exact ⟨hsides.1, by linarith, by linarith, hlevels.2.trans hbottom⟩

theorem label (hbuilt : layout.Built grid diagram rows spots after) {row : SignalRow ℚ}
    (hrow : row ∈ layout.signals) (hself : row.isSelf = false) {palette : Palette ℚ} {point : Point ℚ}
    (hpoint : point ∈ (Drawing.signalLabel palette row).corners) : layout.Holds 0 point := by
  obtain ⟨hstart, hend⟩ := hbuilt.row_ends hrow
  obtain ⟨htop, hline, _, hbottom⟩ := hbuilt.row_levels hrow
  have hlast := row.y_lt_bottom
  rw [Drawing.corners_signalLabel palette hself, List.mem_cons, List.mem_singleton] at hpoint
  simp only [labelGap] at hline hpoint
  obtain rfl | rfl := hpoint
  · exact ⟨le_min hstart.1 hend.1, by simpa using .inl hstart.2, htop, by linarith⟩
  · exact ⟨hstart.1.trans (le_max_left _ _), by simpa using ⟨hstart.2, hend.2⟩, by linarith, by linarith⟩

theorem loopLabel (hbuilt : layout.Built grid diagram rows spots after) {row : SignalRow ℚ}
    (hrow : row ∈ layout.signals) (hself : row.isSelf = true) {palette : Palette ℚ} {point : Point ℚ}
    (hpoint : point ∈ (Drawing.signalLabel palette row).corners) :
    0 ≤ point.x ∧ point.x ≤ layout.width := by
  obtain ⟨hstart, _⟩ := hbuilt.row_ends hrow
  obtain ⟨hlabel, hright⟩ := hbuilt.loop_fits hrow hself
  have hx := List.mem_map_of_mem (f := Point.x) hpoint
  rw [Drawing.corners_signalLabel_self palette hself, List.mem_cons, List.mem_singleton] at hx
  simp only [loopWidth, labelGap] at hx hright
  obtain hx | hx := hx <;> rw [hx] <;> constructor <;> linarith

/-- A lifeline leads from the box of its participant to below all rows. -/
theorem lifeline (hbuilt : layout.Built grid diagram rows spots after) {line : Lifeline ℚ}
    (hline : line ∈ layout.lifelines) : layout.Holds 0 ⟨line.x, line.top⟩ ∧
      layout.Holds 0 ⟨line.x, line.bottom⟩ ∧ line.top < line.bottom ∧
      ∀ row ∈ layout.signals, row.y < line.bottom := by
  obtain ⟨hboxes, hboxHeight, hlines, hrows, hend⟩ := hbuilt.levels
  have hpadding := hbuilt.padding
  rw [hbuilt.composed.lifelines, List.mem_mapIdx] at hline
  obtain ⟨i, hi, rfl⟩ := hline
  obtain ⟨hleft, hcenter, hother, hright⟩ := hbuilt.column hi
  simp only [footerGap]
  refine ⟨⟨?_, ?_, ?_, ?_⟩, ⟨?_, ?_, ?_, ?_⟩, ?_, fun row hrow => ?_⟩
  all_goals try linarith
  obtain ⟨_, _, hlast, _⟩ := hbuilt.row_levels hrow
  linarith

theorem forall₂_lifelines (hbuilt : layout.Built grid diagram rows spots after) :
    List.Forall₂ (fun box line => line.participant = box.name ∧ line.x = box.x ∧
      line.top = box.y + box.height) layout.participants layout.lifelines := by
  rw [hbuilt.composed.participants, hbuilt.composed.lifelines, List.forall₂_iff_get]
  refine ⟨by simp, fun i hbox hline => ?_⟩
  simp [Grid.lineTop]

theorem onCanvas (hbuilt : layout.Built grid diagram rows spots after) :
    layout.OnCanvas grid.spacing.padding where
  title title htitle := by
    obtain ⟨hholds, hbelow⟩ := hbuilt.title htitle
    exact ⟨hholds, fun box hbox => (hbuilt.participant hbox).2 ▸ hbelow⟩
  participants box hbox := (hbuilt.participant hbox).1
  fragments box hbox := by
    obtain ⟨hholds, hdividers⟩ := hbuilt.fragment hbox
    refine ⟨hholds, fun divider hdivider => ?_⟩
    obtain ⟨habove, hbelow⟩ := hdividers divider hdivider
    obtain ⟨hstart, hstop⟩ := hholds.across habove hbelow
    exact ⟨hstart, hstop, habove, hbelow⟩
  lifelines := hbuilt.forall₂_lifelines
  ends _ hline := hbuilt.lifeline hline
  lines _ hrow _ _ hline _ hpoint := hbuilt.lines hrow hline hpoint
  labels _ hrow hself := ⟨hbuilt.label_fits hrow hself, fun _ _ hpoint => hbuilt.label hrow hself hpoint⟩
  loopLabels _ hrow hself _ _ hpoint := hbuilt.loopLabel hrow hself hpoint

end Built

/-- A diagram has a layout that presents it and stays on its canvas. The room on the left and right of
    the columns is set aside for as many borders as fragments are nested, and boxes and the title only
    make the canvas wider. -/
theorem ofDiagram_onCanvas {measure : String → Size ℚ} (hwidth : ∀ text, 0 ≤ (measure text).width)
    (hheight : ∀ text, 0 ≤ (measure text).height) {options : Options ℚ}
    (hpadding : 0 ≤ (Spacing.ofOptions options).padding) {diagram : Diagram}
    (hrefers : ∀ name ∈ diagram.content.body.named, name ∈ diagram.names) :
    ∃ layout columns, ofDiagram measure (Spacing.ofOptions options) diagram = .ok layout ∧
      layout.Presents ⟨diagram.participants, columns, Spacing.ofOptions options, measure⟩ diagram ∧
      layout.OnCanvas (Spacing.ofOptions options).padding := by
  obtain ⟨layout, columns, hlayout, hroomy, hcases⟩ :=
    ofDiagram_composed measure (Spacing.descends_of_height (Spacing.ofOptions options) hheight) hrefers
  obtain ⟨_, -, hpresents⟩ := ofDiagram_presents hlayout
  refine ⟨layout, _, hlayout, hpresents, ?_⟩
  obtain ⟨_, _, rfl⟩ | ⟨rows, after, spots, _, hshows, hplaces, hcomposed⟩ := hcases
  · refine ofTitle_onCanvas hpadding fun text htext => ?_
    obtain ⟨name, _, rfl⟩ := Option.map_eq_some_iff.1 htext
    exact ⟨hwidth name, hheight name⟩
  · have hbuilt : layout.Built _ diagram rows spots after :=
      ⟨hcomposed, hshows, hplaces, hroomy, rfl, hrefers, hpadding, hwidth, hheight⟩
    exact hbuilt.onCanvas

theorem ofDiagram_onCanvas_loops :
    let inner : Operands := .cons "" (.signal ⟨"B", "B", "again", .dashed, true⟩ .empty) .none
    let outer : Operands := .cons "yes" (.fragment "loop" inner .empty) (.cons "no" .empty .none)
    let diagram : Diagram :=
      { title := some "Retries"
        participants := [⟨"A", "A"⟩, ⟨"B", "B"⟩]
        content := ⟨"", .signal ⟨"A", "B", "hi", .solid, true⟩ (.fragment "alt" outer .empty)⟩ }
    (∀ text, 0 ≤ (evenSize (7 : ℚ) 15 text).width) ∧ (∀ text, 0 ≤ (evenSize (7 : ℚ) 15 text).height) ∧
      0 ≤ (Spacing.ofOptions { padding := some (5 : ℚ), participantGap := some (-20) }).padding ∧
      (∀ name ∈ diagram.content.body.named, name ∈ diagram.names) ∧
      ∃ layout columns, ofDiagram (evenSize (7 : ℚ) 15)
          (Spacing.ofOptions { padding := some 5, participantGap := some (-20) }) diagram = .ok layout ∧
        layout.Presents ⟨diagram.participants, columns,
          Spacing.ofOptions { padding := some 5, participantGap := some (-20) }, evenSize 7 15⟩ diagram ∧
        layout.OnCanvas 5 := by
  intro inner outer diagram
  have hwidth : ∀ text, 0 ≤ (evenSize (7 : ℚ) 15 text).width := by
    intro text
    simp only [evenSize, ofCount_eq_cast]
    positivity
  have hheight : ∀ text, 0 ≤ (evenSize (7 : ℚ) 15 text).height := fun text => by norm_num [evenSize]
  have hpadding :
      0 ≤ (Spacing.ofOptions { padding := some (5 : ℚ), participantGap := some (-20) }).padding := by
    norm_num [Spacing.ofOptions]
  have hrefers : ∀ name ∈ diagram.content.body.named, name ∈ diagram.names := by decide
  exact ⟨hwidth, hheight, hpadding, hrefers, ofDiagram_onCanvas hwidth hheight hpadding hrefers⟩

end Layout

end SequenceChart
