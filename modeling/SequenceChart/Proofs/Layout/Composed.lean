import SequenceChart.Proofs.Layout.Descent
import SequenceChart.Proofs.Layout.Room

namespace SequenceChart

open Distance

namespace Grid

/-- Where the boxes of the participants begin: below the title if there is one. -/
def boxTop (grid : Grid ℚ) : Option (String × Size ℚ) → ℚ
  | none => grid.spacing.padding
  | some (_, size) => grid.spacing.padding + (size.height + titleGap)

/-- Where the lifelines begin: at the lower edge of the boxes. -/
def lineTop (grid : Grid ℚ) (heading : Option (String × Size ℚ)) : ℚ :=
  grid.boxTop heading + Layout.boxHeightOf grid.measure grid.participants

/-- Where what is drawn ends on the right: the columns, the fragments, and the title if there is
    one. -/
def rightEnd (grid : Grid ℚ) (heading : Option (String × Size ℚ)) (boxes : List (FragmentBox ℚ)) :
    ℚ :=
  let right := boxes.foldl (fun right box => larger right (box.x + box.width)) grid.columns.right
  match heading with
  | none => right
  | some (_, size) => larger right (grid.spacing.padding + size.width)

end Grid

/-- The title of a diagram with its size. -/
def Diagram.heading (measure : String → Size ℚ) (diagram : Diagram) : Option (String × Size ℚ) :=
  (nonempty? diagram.title).map fun text => (text, measure text)

namespace Layout

/-- The layout that is made of what has been placed down to a cursor. -/
def assembled (grid : Grid ℚ) (heading : Option (String × Size ℚ)) (rows : Rows ℚ) (after : Cursor ℚ)
    (unclosed : List (ActivationBar ℚ)) : Layout ℚ :=
  let padding := grid.spacing.padding
  let width := grid.rightEnd heading rows.boxes + padding
  { width
    height := after.y + footerGap + padding
    title := heading.map fun (text, size) =>
      ⟨text, (width - size.width) / 2, padding, size.width, size.height⟩
    participants := grid.participants.mapIdx fun i participant =>
      ⟨participant.name, participant.label, grid.center i, grid.boxTop heading, grid.boxWidth i,
        boxHeightOf grid.measure grid.participants⟩
    lifelines := grid.participants.mapIdx fun i participant =>
      ⟨participant.name, grid.center i, grid.lineTop heading, after.y + footerGap⟩
    signals := rows.signals
    activations := rows.bars ++ unclosed
    fragments := rows.boxes }

/-- A diagram is laid out in two steps: its rows are placed, and then the layout is made of them. -/
theorem ofRows_eq (grid : Grid ℚ) (content : Body) (heading : Option (String × Size ℚ)) :
    ofRows grid content heading = (do
      let (rows, after) ← grid.placeBody 0 content { y := grid.lineTop heading + headerGap }
      let unclosed ← grid.closeAllBars after.y after.opened
      return assembled grid heading rows after unclosed) := by
  cases heading <;> rfl

/-- A layout is that of a title, or is made of what is placed in the columns of its diagram. -/
theorem ofDiagram_assembled {measure : String → Size ℚ} {spacing : Spacing ℚ} {diagram : Diagram}
    {columns : Columns ℚ} (hcolumns : Columns.ofDiagram measure spacing diagram = .ok columns)
    {layout : Layout ℚ} (hlayout : ofDiagram measure spacing diagram = .ok layout) :
    (diagram.participants = [] ∧ diagram.content.body = .empty ∧
        layout = ofTitle spacing (diagram.heading measure)) ∨
      ∃ rows after unclosed,
        let grid : Grid ℚ := ⟨diagram.participants, columns, spacing, measure⟩
        let heading := diagram.heading measure
        grid.placeBody 0 diagram.content.body { y := grid.lineTop heading + headerGap } = .ok (rows, after) ∧
          grid.closeAllBars after.y after.opened = .ok unclosed ∧
          layout = assembled grid heading rows after unclosed := by
  rw [ofDiagram] at hlayout
  split at hlayout
  · next hempty =>
    simp only [Bool.and_eq_true, List.isEmpty_iff, decide_eq_true_eq] at hempty
    cases hlayout
    exact .inl ⟨hempty.1, hempty.2, rfl⟩
  · rw [hcolumns] at hlayout
    change ofRows _ _ (diagram.heading measure) = .ok layout at hlayout
    rw [ofRows_eq] at hlayout
    obtain ⟨⟨rows, after⟩, hbody, hlayout⟩ := bind_eq_ok_iff.1 hlayout
    obtain ⟨unclosed, hunclosed, hlayout⟩ := bind_eq_ok_iff.1 hlayout
    cases hlayout
    exact .inr ⟨rows, after, unclosed, hbody, hunclosed, rfl⟩

/-- A layout is made of a title, of participants and their lifelines, and of the rows and boxes that
    have been placed down to a cursor. It is wide enough for its columns, boxes and title. -/
structure Composed (layout : Layout ℚ) (grid : Grid ℚ) (heading : Option (String × Size ℚ))
    (rows : Rows ℚ) (after : Cursor ℚ) : Prop where
  height : layout.height = after.y + footerGap + grid.spacing.padding
  columns : grid.columns.right + grid.spacing.padding ≤ layout.width
  boxes : ∀ box ∈ rows.boxes, box.x + box.width + grid.spacing.padding ≤ layout.width
  fitting : ∀ text ∈ heading, grid.spacing.padding + text.2.width + grid.spacing.padding ≤ layout.width
  title : layout.title = heading.map fun text => ⟨text.1, (layout.width - text.2.width) / 2,
    grid.spacing.padding, text.2.width, text.2.height⟩
  participants : layout.participants = grid.participants.mapIdx fun i participant =>
    ⟨participant.name, participant.label, grid.center i, grid.boxTop heading, grid.boxWidth i,
      boxHeightOf grid.measure grid.participants⟩
  lifelines : layout.lifelines = grid.participants.mapIdx fun i participant =>
    ⟨participant.name, grid.center i, grid.lineTop heading, after.y + footerGap⟩
  signals : layout.signals = rows.signals
  fragments : layout.fragments = rows.boxes

theorem ofRows_eq_ok {grid : Grid ℚ} {content : Body} {heading : Option (String × Size ℚ)}
    {rows : Rows ℚ} {after : Cursor ℚ} {bars : List (ActivationBar ℚ)}
    (hbody : grid.placeBody 0 content { y := grid.lineTop heading + headerGap } = .ok (rows, after))
    (hbars : grid.closeAllBars after.y after.opened = .ok bars) :
    ∃ layout, ofRows grid content heading = .ok layout ∧ layout.Composed grid heading rows after := by
  obtain ⟨hcolumns, hboxes⟩ := foldl_larger_ge (fun box : FragmentBox ℚ => box.x + box.width)
    grid.columns.right rows.boxes
  have hright : rows.boxes.foldl (fun right box => larger right (box.x + box.width))
      grid.columns.right ≤ grid.rightEnd heading rows.boxes := by
    cases heading with
    | none => exact le_rfl
    | some text =>
      rw [Grid.rightEnd, larger_eq_max]
      exact le_max_left _ _
  refine ⟨assembled grid heading rows after bars, ?_, rfl, add_le_add_left (hcolumns.trans hright) _,
    fun box hbox => add_le_add_left ((hboxes box hbox).trans hright) _, ?_, rfl, rfl, rfl, rfl, rfl⟩
  · rw [ofRows_eq, hbody]
    simp only [bind, Except.bind, hbars]
    rfl
  · rintro text ⟨rfl⟩
    refine add_le_add_left ?_ _
    rw [Grid.rightEnd, larger_eq_max]
    exact le_max_right _ _

/-- A diagram whose signals and activations refer to participants has a layout: that of its title
    alone if there is nothing else, or else one made of what is placed in its columns. -/
theorem ofDiagram_composed (measure : String → Size ℚ) {spacing : Spacing ℚ}
    (hdescends : spacing.Descends measure) {diagram : Diagram}
    (hrefers : ∀ name ∈ diagram.content.body.named, name ∈ diagram.names) :
    ∃ layout columns, ofDiagram measure spacing diagram = .ok layout ∧
      columns.Roomy measure spacing.padding (fragmentPad * ofCount diagram.content.body.depth) diagram ∧
      let grid : Grid ℚ := ⟨diagram.participants, columns, spacing, measure⟩
      (diagram.participants = [] ∧ diagram.content.body = .empty ∧
          layout = ofTitle spacing (diagram.heading measure)) ∨
        ∃ rows after spots, grid.placeBody 0 diagram.content.body
            { y := grid.lineTop (diagram.heading measure) + headerGap } = .ok (rows, after) ∧
          Grid.Shows rows (diagram.content.body.items 0) spots ∧
          grid.Places { y := grid.lineTop (diagram.heading measure) + headerGap } spots after ∧
          layout.Composed grid (diagram.heading measure) rows after := by
  obtain ⟨columns, hcolumns, hordered, hroomy⟩ :=
    Columns.ofDiagram_eq_ok measure spacing (Diagram.signals_listed hrefers)
  have husable : Grid.Usable ⟨diagram.participants, columns, spacing, measure⟩ := ⟨hordered, hdescends⟩
  rw [ofDiagram]
  split
  · next hempty =>
    simp only [Bool.and_eq_true, List.isEmpty_iff, decide_eq_true_eq] at hempty
    exact ⟨_, columns, rfl, hroomy, .inl ⟨hempty.1, hempty.2, rfl⟩⟩
  · obtain ⟨rows, after, spots, hbody, hshows, hplaces⟩ := Grid.placeBody_eq_ok husable 0
      diagram.content.body hrefers { y := Grid.lineTop _ (diagram.heading measure) + headerGap }
    obtain ⟨bars, hbars⟩ := Grid.closeAllBars_eq_ok (hplaces.listed nofun) after.y
    obtain ⟨layout, hlayout, hcomposed⟩ := ofRows_eq_ok hbody hbars
    simp only [hcolumns, bind, Except.bind]
    exact ⟨layout, columns, hlayout, hroomy,
      .inr ⟨rows, after, spots, hbody, hshows, hplaces, hcomposed⟩⟩

theorem ofTitle_signals (spacing : Spacing ℚ) (heading : Option (String × Size ℚ)) :
    (ofTitle spacing heading).signals = [] := by
  cases heading <;> rfl

theorem ofTitle_fragments (spacing : Spacing ℚ) (heading : Option (String × Size ℚ)) :
    (ofTitle spacing heading).fragments = [] := by
  cases heading <;> rfl

/-- The signals and fragments of a diagram stand in a layout in these spots, the signals counted. -/
structure Shows (layout : Layout ℚ) (diagram : Diagram) (spots : List Spot) : Prop where
  items : spots.map Spot.item = diagram.content.body.items 0
  signals : spots.filterMap Spot.row? = layout.signals
  numbered : layout.signals.map SignalRow.index = List.range layout.signals.length
  fragments : spots.filterMap Spot.box? = layout.fragments

theorem Shows.messages {layout : Layout ℚ} {diagram : Diagram} {spots : List Spot}
    (hshows : layout.Shows diagram spots) : layout.signals.map SignalRow.message = diagram.signals := by
  rw [← hshows.signals, Spot.map_message_filterMap_row?, hshows.items, Body.filterMap_items_signal?]
  rfl

/-- The spots of a diagram follow each other in a layout as the grid and the events of the diagram
    demand. -/
structure Arranged (layout : Layout ℚ) (grid : Grid ℚ) (diagram : Diagram) (spots : List Spot) :
    Prop where
  shows : layout.Shows diagram spots
  fits : ∀ spot ∈ spots, grid.Fits spot
  spaced : layout.signals.Pairwise fun row next => row.bottom ≤ next.top
  stacked : grid.Stacked spots
  runs : ∃ top bottom, grid.Runs top diagram.content.body.events layout.signals bottom

theorem Arranged.carries {layout : Layout ℚ} {grid : Grid ℚ} {diagram : Diagram} {spots : List Spot}
    (harranged : layout.Arranged grid diagram spots) : ∀ row ∈ layout.signals, grid.Carries row := by
  intro row hrow
  rw [← harranged.shows.signals] at hrow
  exact harranged.fits _ (Spot.mem_filterMap_row?.1 hrow)

theorem ofDiagram_arranged (measure : String → Size ℚ) {spacing : Spacing ℚ}
    (hdescends : spacing.Descends measure) {diagram : Diagram}
    (hrefers : ∀ name ∈ diagram.content.body.named, name ∈ diagram.names) :
    ∃ layout spots columns, ofDiagram measure spacing diagram = .ok layout ∧
      layout.Arranged ⟨diagram.participants, columns, spacing, measure⟩ diagram spots := by
  obtain ⟨layout, columns, hlayout, _, ⟨_, hempty, rfl⟩ |
    ⟨rows, after, spots, hbody, hshows, hplaces, hcomposed⟩⟩ :=
      ofDiagram_composed measure hdescends hrefers
  · refine ⟨_, [], columns, hlayout, ⟨?_, (ofTitle_signals _ _).symm, ?_, (ofTitle_fragments _ _).symm⟩,
      List.forall_mem_nil _, ?_, fun front _ _ _ hsplit => by simp at hsplit, 0, 0, ?_⟩
    · rw [hempty]
      rfl
    · rw [ofTitle_signals]
      rfl
    · rw [ofTitle_signals]
      exact .nil
    · rw [ofTitle_signals, hempty]
      exact .nil 0
  · have hsignals : spots.filterMap Spot.row? = layout.signals :=
      hshows.signals.trans hcomposed.signals.symm
    have hruns := Grid.placeBody_runs 0 diagram.content.body hbody
    rw [← hcomposed.signals] at hruns
    refine ⟨layout, spots, columns, hlayout,
      ⟨hshows.items, hsignals, ?_, hshows.boxes.trans hcomposed.fragments.symm⟩, hplaces.fits, ?_,
      hplaces.stacked, _, _, hruns⟩
    · rw [← hsignals, hplaces.numbered, List.range_eq_range']
    · rw [← hsignals]
      exact hplaces.spaced

/-- The boxes of the fragments of a diagram in a layout, in order. -/
structure Draws (layout : Layout ℚ) (diagram : Diagram)
    (placed : List (Fragment × FragmentBox ℚ)) : Prop where
  fragments : placed.map Prod.fst = diagram.content.body.fragments 0
  boxes : placed.map Prod.snd = layout.fragments
  same : ∀ pair ∈ placed, pair.2.kind = pair.1.kind ∧ pair.2.label = pair.1.operands.label ∧
    pair.2.depth = pair.1.depth

theorem ofDiagram_eq_ok (measure : String → Size ℚ) {spacing : Spacing ℚ}
    (hrow : 0 ≤ spacing.rowHeight) {diagram : Diagram}
    (hrefers : ∀ name ∈ diagram.content.body.named, name ∈ diagram.names) :
    ∃ layout placed columns, ofDiagram measure spacing diagram = .ok layout ∧
      layout.Draws diagram placed ∧
      Grid.Nested ⟨diagram.participants, columns, spacing, measure⟩ placed := by
  obtain ⟨layout, spots, columns, hlayout, ⟨hitems, _, _, hboxes⟩, hfits, _, hstacked, _⟩ :=
    ofDiagram_arranged measure (Spacing.descends_of_rowHeight hrow measure) hrefers
  refine ⟨layout, spots.filterMap Spot.fragmentBox?, columns, hlayout, ⟨?_, ?_, fun pair hpair => ?_⟩,
    hstacked.nested⟩
  · rw [Spot.map_fst_filterMap_fragmentBox?, hitems, Body.filterMap_items_fragment?]
  · rw [Spot.map_snd_filterMap_fragmentBox?, hboxes]
  · have hframes : Grid.Frames _ pair.1 pair.2 := hfits _ (Spot.mem_filterMap_fragmentBox?.1 hpair)
    exact ⟨hframes.kind, hframes.label, hframes.depth⟩

end Layout

end SequenceChart
