import SequenceChart.Proofs.Layout.Apart
import SequenceChart.Proofs.Layout.Enumerated

namespace SequenceChart

open Distance

/-- A fragment extends over the participants that it refers to, in fragments inside it too, or over all
    of them if it refers to none. -/
def Fragment.ExtendsOver (fragment : Fragment) (name : String) : Prop :=
  fragment.operands.named = [] ∨ name ∈ fragment.operands.named

/-- The signals in the spots of operands are those of the operands. -/
theorem Spot.message_mem_signals {operands : Operands} {depth : Nat} {inside : List (List Spot)}
    (hitems : inside.map (List.map Spot.item) = operands.items depth) {row : SignalRow ℚ}
    (hrow : .row row ∈ inside.flatten) : row.message ∈ operands.signals := by
  rw [← operands.filterMap_items_signal? depth, ← hitems, ← List.map_flatten,
    ← Spot.map_message_filterMap_row?]
  exact List.mem_map_of_mem (Spot.mem_filterMap_row?.2 hrow)

/-- The fragments in the spots of operands are those of the operands. -/
theorem Spot.fragment_mem_fragments {operands : Operands} {depth : Nat} {inside : List (List Spot)}
    (hitems : inside.map (List.map Spot.item) = operands.items depth) {fragment : Fragment}
    {box : FragmentBox ℚ} (hbox : .box fragment box ∈ inside.flatten) :
    fragment ∈ operands.fragments depth := by
  rw [← operands.filterMap_items_fragment? depth, ← hitems, ← List.map_flatten,
    ← Spot.map_fst_filterMap_fragmentBox?]
  exact List.mem_map.2 ⟨(fragment, box), Spot.mem_filterMap_fragmentBox?.2 hbox, rfl⟩

namespace Grid

variable {grid : Grid ℚ} {fragment : Fragment} {box : FragmentBox ℚ}

/-- How far the box of a fragment reaches beyond its columns: by one border for itself, and by one for
    each fragment inside each other in it. -/
def inset (fragment : Fragment) : ℚ :=
  fragmentPad * ofCount (fragment.operands.depth + 1)

theorem fragmentPad_le_inset (fragment : Fragment) : fragmentPad ≤ inset fragment := by
  have hdepth : (0 : ℚ) ≤ fragment.operands.depth := Nat.cast_nonneg _
  simp only [inset, fragmentPad, ofCount_eq_cast, Nat.cast_succ]
  linarith

theorem inset_add_le {outer inner : Fragment} {depth : Nat}
    (hinside : inner ∈ outer.operands.fragments depth) : inset inner + fragmentPad ≤ inset outer := by
  have hnesting : ((inner.operands.depth + 1 : Nat) : ℚ) ≤ outer.operands.depth :=
    Nat.cast_le.2 (Operands.inside outer.operands hinside).2
  simp only [inset, fragmentPad, ofCount_eq_cast, Nat.cast_succ] at hnesting ⊢
  linarith

theorem columnIn_mem_reach {operands : Operands} {name : String} (hname : name ∈ operands.named) :
    columnIn grid.participants name ∈ grid.reach operands := by
  rw [reach, if_neg (List.ne_nil_of_mem hname)]
  exact List.mem_map_of_mem hname

theorem mem_reach_of_extendsOver {i : Nat} {participant : Participant}
    (hparticipant : grid.participants[i]? = some participant)
    (hdistinct : (grid.participants.map Participant.name).Nodup)
    (hextends : fragment.ExtendsOver participant.name) : i ∈ grid.reach fragment.operands := by
  obtain hnone | hname := hextends
  · rw [reach, if_pos hnone]
    exact List.mem_range.2 (List.getElem?_eq_some_iff.1 hparticipant).1
  · rw [← columnIn_of_getElem? hdistinct hparticipant]
    exact columnIn_mem_reach hname

/-- The box of a fragment reaches beyond each of its columns, since those stand in order. -/
theorem Frames.beyond (hordered : grid.columns.Ordered grid.participants.length)
    (hframes : grid.Frames fragment box) (hlisted : grid.Lists fragment.operands.named) {i : Nat}
    (hi : i ∈ grid.reach fragment.operands) :
    box.x + inset fragment ≤ grid.columns.leftEdge i ∧
      grid.columns.rightEdge i + inset fragment ≤ box.x + box.width := by
  have hcolumn := lt_of_mem_reach hlisted hi
  obtain ⟨right, hspans, hwidth⟩ := hframes.spans
  obtain ⟨low, high, hlow, hhigh, hleft, hright⟩ :=
    hspans.of_ne_nil (List.ne_nil_of_length_pos (Nat.zero_lt_of_lt hcolumn))
  have hfirst := hordered.left low i (hlow.2 hi) hcolumn
  have hlast := hordered.right i high (hhigh.2 hi) (lt_of_mem_reach hlisted hhigh.1)
  have hend : right ≤ box.x + box.width := hwidth ▸ le_max_left _ _
  change box.x = _ - inset fragment at hleft
  change right = _ + inset fragment at hright
  constructor <;> linarith

theorem Frames.header_le (hframes : grid.Frames fragment box) :
    (grid.measure (Label.header fragment.kind fragment.operands.label)).width + 32 ≤ box.width := by
  obtain ⟨right, -, hwidth⟩ := hframes.spans
  have hheader : grid.headerEnd fragment box.x ≤ box.x + box.width := hwidth ▸ le_max_right _ _
  simp only [headerEnd, tabPad] at hheader
  linarith

/-- The box of a fragment begins on the left of that of every fragment inside it that refers to a
    participant. -/
theorem Frames.left_add_le (hordered : grid.columns.Ordered grid.participants.length)
    {inner : Fragment} {child : FragmentBox ℚ} (houter : grid.Frames fragment box)
    (hinner : grid.Frames inner child) (hlisted : grid.Lists fragment.operands.named) {depth : Nat}
    (hinside : inner ∈ fragment.operands.fragments depth) (hnamed : inner.operands.named ≠ []) :
    box.x + 10 ≤ child.x := by
  obtain ⟨hsubset, _⟩ := Operands.inside fragment.operands hinside
  obtain ⟨name, hname⟩ := List.exists_mem_of_ne_nil _ hnamed
  have hcolumn := columnIn_lt (hlisted name (hsubset hname))
  obtain ⟨right, hspans, _⟩ := hinner.spans
  obtain ⟨low, high, hlow, -, hleft, -⟩ :=
    hspans.of_ne_nil (List.ne_nil_of_length_pos (Nat.zero_lt_of_lt hcolumn))
  have hlow := hlow.1
  rw [reach, if_neg hnamed] at hlow
  obtain ⟨first, hfirst, rfl⟩ := List.mem_map.1 hlow
  have hbeyond := (houter.beyond hordered hlisted (columnIn_mem_reach (hsubset hfirst))).1
  have hdeeper := inset_add_le hinside
  change child.x = _ - inset inner at hleft
  simp only [fragmentPad] at hdeeper
  linarith

/-- Both ends of a row in a fragment are in the middle of columns that the fragment extends over. -/
theorem Frames.contains_ends (hordered : grid.columns.Ordered grid.participants.length)
    (hboxes : ∀ i, 0 ≤ grid.columns.widths.getD i 0) (hframes : grid.Frames fragment box)
    (hlisted : grid.Lists fragment.operands.named) {row : SignalRow ℚ} (hcarries : grid.Carries row)
    (hrow : row.message ∈ fragment.operands.signals) :
    ∀ x ∈ [row.startX, row.endX], box.x < x ∧ x < box.x + box.width := by
  have hmiddle {name : String} (hname : name ∈ fragment.operands.named) :
      box.x < grid.center (columnIn grid.participants name) ∧
        grid.center (columnIn grid.participants name) < box.x + box.width := by
    obtain ⟨hleft, hright⟩ := hframes.beyond hordered hlisted (columnIn_mem_reach hname)
    have hpad := fragmentPad_le_inset fragment
    have hwidth := hboxes (columnIn grid.participants name)
    simp only [Columns.leftEdge, Columns.rightEdge, fragmentPad, center] at hleft hright hpad ⊢
    constructor <;> linarith
  obtain ⟨hsource, htarget⟩ := Operands.signals_named fragment.operands hrow
  rw [hcarries.startX, hcarries.endX]
  exact List.forall_mem_cons.2 ⟨hmiddle hsource, List.forall_mem_singleton.2 (hmiddle htarget)⟩

end Grid

/-- From left to right the box of a fragment reaches beyond the boxes of the participants that the
    fragment extends over, and beyond the ends of its signals. It has room for its header, and begins on
    the left of the fragments inside it that refer to participants. -/
structure FragmentBox.Surrounds (box : FragmentBox ℚ) (measure : String → Size ℚ)
    (participants : List (ParticipantBox ℚ)) (fragment : Fragment) (operands : List (List Spot)) :
    Prop where
  participants : ∀ column ∈ participants, fragment.ExtendsOver column.name →
    box.x + 10 ≤ column.x - column.width / 2 ∧ column.x + column.width / 2 + 10 ≤ box.x + box.width
  ends : ∀ row, .row row ∈ operands.flatten →
    ∀ x ∈ [row.startX, row.endX], box.x < x ∧ x < box.x + box.width
  header : (measure (Label.header box.kind box.label)).width + 32 ≤ box.width
  inside : ∀ inner child, .box inner child ∈ operands.flatten → inner.operands.named ≠ [] →
    box.x + 10 ≤ child.x

namespace Layout

variable {layout : Layout ℚ} {columns : Columns ℚ} {spacing : Spacing ℚ} {measure : String → Size ℚ}
  {diagram : Diagram}

/-- The spots of a diagram are arranged on the columns that its signals have asked for. -/
theorem arranged_of_columns (hdescends : spacing.Descends measure)
    (hrefers : ∀ name ∈ diagram.content.body.named, name ∈ diagram.names)
    (hcolumns : Columns.ofDiagram measure spacing diagram = .ok columns)
    (hordered : columns.Ordered diagram.participants.length)
    (hlayout : ofDiagram measure spacing diagram = .ok layout) :
    ∃ spots, layout.Arranged ⟨diagram.participants, columns, spacing, measure⟩ diagram spots := by
  obtain ⟨y, rows, after, hbody, hsignals, hboxes⟩ := (ofDiagram_placedOn hcolumns hlayout).rows
  have husable : Grid.Usable ⟨diagram.participants, columns, spacing, measure⟩ := ⟨hordered, hdescends⟩
  obtain ⟨_, _, spots, hplaced, hshows, hplaces⟩ :=
    Grid.placeBody_eq_ok husable 0 diagram.content.body hrefers { y }
  cases hbody.symm.trans hplaced
  have hrows : spots.filterMap Spot.row? = layout.signals := hshows.signals.trans hsignals.symm
  have hruns := Grid.placeBody_runs 0 diagram.content.body hbody
  rw [← hsignals] at hruns
  refine ⟨spots, ⟨hshows.items, hrows, ?_, hshows.boxes.trans hboxes.symm⟩, hplaces.fits, ?_,
    hplaces.stacked, _, _, hruns⟩
  · rw [← hrows, hplaces.numbered, List.range_eq_range']
  · rw [← hrows]
    exact hplaces.spaced

/-- What stands behind the box of a fragment are the spots of its operands, which fit the columns as the
    box does. -/
theorem Arranged.fragment {grid : Grid ℚ} {spots : List Spot}
    (harranged : layout.Arranged grid diagram spots) (hlisted : grid.Lists diagram.content.body.named)
    {front rest : List Spot} {fragment : Fragment} {box : FragmentBox ℚ}
    (hsplit : spots = front ++ .box fragment box :: rest) :
    ∃ (operands : List (List Spot)) (back : List Spot), rest = operands.flatten ++ back ∧
      operands.map (List.map Spot.item) = fragment.operands.items (fragment.depth + 1) ∧
      grid.Frames fragment box ∧ grid.Lists fragment.operands.named ∧
      ∀ spot ∈ operands.flatten, grid.Fits spot := by
  obtain ⟨operands, back, rfl, hitems, -, -⟩ := harranged.stacked front fragment box rest hsplit
  have hfits := harranged.fits
  rw [hsplit] at hfits
  obtain ⟨hframes, hrest⟩ := List.forall_mem_cons.1 (List.forall_mem_append.1 hfits).2
  have hfragment : fragment ∈ diagram.content.body.fragments 0 := by
    rw [← Body.filterMap_items_fragment?, ← harranged.shows.items, ← Spot.map_fst_filterMap_fragmentBox?]
    exact List.mem_map.2 ⟨(fragment, box), Spot.mem_filterMap_fragmentBox?.2 (by simp [hsplit]), rfl⟩
  exact ⟨operands, back, rfl, hitems, hframes,
    fun name hname => hlisted name ((Body.inside diagram.content.body hfragment).1 hname),
    (List.forall_mem_append.1 hrest).1⟩

/-- The signals and fragments of a diagram stand in spots in the order of the source. Behind the box of
    each fragment come the spots of its operands, and the box surrounds them. -/
def Surrounded (layout : Layout ℚ) (measure : String → Size ℚ) (diagram : Diagram) : Prop :=
  ∃ spots : List Spot, layout.Shows diagram spots ∧
    ∀ (front : List Spot) (fragment : Fragment) (box : FragmentBox ℚ) (rest : List Spot),
      spots = front ++ .box fragment box :: rest → ∃ (operands : List (List Spot)) (back : List Spot),
        rest = operands.flatten ++ back ∧
        operands.map (List.map Spot.item) = fragment.operands.items (fragment.depth + 1) ∧
        box.kind = fragment.kind ∧ box.label = fragment.operands.label ∧ box.depth = fragment.depth ∧
        box.Surrounds measure layout.participants fragment operands

theorem Framed.surrounds (hframed : layout.Framed ⟨diagram.participants, columns, spacing, measure⟩)
    (hdistinct : diagram.names.Nodup) (hordered : columns.Ordered diagram.participants.length)
    (hboxes : ∀ i, 0 ≤ columns.widths.getD i 0) {fragment : Fragment} {box : FragmentBox ℚ}
    (hframes : Grid.Frames ⟨diagram.participants, columns, spacing, measure⟩ fragment box)
    (hlisted : ∀ name ∈ fragment.operands.named, name ∈ diagram.names) {operands : List (List Spot)}
    (hitems : operands.map (List.map Spot.item) = fragment.operands.items (fragment.depth + 1))
    (hfits : ∀ spot ∈ operands.flatten,
      Grid.Fits ⟨diagram.participants, columns, spacing, measure⟩ spot) :
    box.Surrounds measure layout.participants fragment operands where
  participants := by
    intro column hcolumn hextends
    obtain ⟨i, hi⟩ := List.getElem?_of_mem hcolumn
    obtain ⟨participant, hparticipant, hname, -, hx, hwidth⟩ := hframed.getElem? hi
    obtain ⟨hleft, hright⟩ := hframes.beyond hordered hlisted
      (Grid.mem_reach_of_extendsOver hparticipant hdistinct (hname ▸ hextends))
    have hpad := Grid.fragmentPad_le_inset fragment
    simp only [fragmentPad, Columns.leftEdge, Columns.rightEdge] at hpad hleft hright
    rw [hx, hwidth, Grid.center, Grid.boxWidth]
    constructor <;> linarith
  ends row hrow :=
    hframes.contains_ends hordered hboxes hlisted (hfits _ hrow) (Spot.message_mem_signals hitems hrow)
  header := by
    rw [hframes.kind, hframes.label]
    exact hframes.header_le
  inside inner child hchild :=
    hframes.left_add_le hordered (hfits _ hchild) hlisted (Spot.fragment_mem_fragments hitems hchild)

/-- From left to right the box of a fragment has in it the boxes of all participants that the fragment
    extends over, and so also the arrows between them. The sign of the widths and of the distances is
    not needed, since the boxes of participants have a least width. -/
theorem ofDiagram_surrounded {measure : String → Size ℚ} (hheight : ∀ text, 0 ≤ (measure text).height)
    (options : Options ℚ) {diagram : Diagram} (hparticipants : diagram.participants ≠ [])
    (hdistinct : diagram.names.Nodup)
    (hrefers : ∀ name ∈ diagram.content.body.named, name ∈ diagram.names) :
    ∃ layout, ofDiagram measure (Spacing.ofOptions options) diagram = .ok layout ∧
      layout.Surrounded measure diagram := by
  obtain ⟨layout, columns, hlayout, hcolumns, hframed, hordered, hroomy, -⟩ :=
    ofDiagram_onColumns measure (Spacing.ofOptions options) hparticipants hrefers
  obtain ⟨spots, harranged⟩ := arranged_of_columns (Spacing.descends_of_height _ hheight) hrefers hcolumns
    hordered hlayout
  refine ⟨layout, hlayout, spots, harranged.shows, fun front fragment box rest hsplit => ?_⟩
  obtain ⟨operands, back, hrest, hitems, hframes, hlisted, hfits⟩ := harranged.fragment hrefers hsplit
  exact ⟨operands, back, hrest, hitems, hframes.kind, hframes.label, hframes.depth,
    hframed.surrounds hdistinct hordered hroomy.boxes hframes hlisted hitems hfits⟩

theorem ofDiagram_surrounded_nested :
    let inner : Operands := .cons "" (.signal ⟨"B", "C", "again", .dashed, true⟩ .empty) .none
    let outer : Operands := .cons "yes" (.fragment "loop" inner .empty)
      (.cons "no" (.fragment "opt" (.cons "" .empty .none) .empty) .none)
    let diagram : Diagram :=
      { participants := [⟨"A", "A"⟩, ⟨"B", "B"⟩, ⟨"C", "C"⟩]
        content := ⟨"", .signal ⟨"A", "B", "", .solid, true⟩ (.fragment "alt" outer .empty)⟩ }
    (∀ text, 0 ≤ (evenSize (7 : ℚ) 15 text).height) ∧ diagram.participants ≠ [] ∧ diagram.names.Nodup ∧
      (∀ name ∈ diagram.content.body.named, name ∈ diagram.names) ∧
      ∃ layout, ofDiagram (evenSize (7 : ℚ) 15)
          (Spacing.ofOptions { participantGap := some (-5), rowHeight := some (-5) }) diagram = .ok layout ∧
        layout.Surrounded (evenSize 7 15) diagram := by
  intro inner outer diagram
  have hheight : ∀ text, 0 ≤ (evenSize (7 : ℚ) 15 text).height := fun text => by norm_num [evenSize]
  have hparticipants : diagram.participants ≠ [] := List.cons_ne_nil _ _
  have hdistinct : diagram.names.Nodup := by decide
  have hrefers : ∀ name ∈ diagram.content.body.named, name ∈ diagram.names := by decide
  exact ⟨hheight, hparticipants, hdistinct, hrefers,
    ofDiagram_surrounded hheight _ hparticipants hdistinct hrefers⟩

end Layout

end SequenceChart
