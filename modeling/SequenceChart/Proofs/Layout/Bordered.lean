import SequenceChart.Font
import SequenceChart.Proofs.Layout.Surrounded

namespace SequenceChart

open Distance

section Deep

variable {fragment : Fragment}

mutual

theorem Body.le_depth_of_mem : ∀ (body : Body) {depth : Nat}, fragment ∈ body.fragments depth →
    depth ≤ fragment.depth
  | .empty, _, hfragment => by cases hfragment
  | .signal message rest, _, hfragment => Body.le_depth_of_mem rest hfragment
  | .activation name starts rest, _, hfragment => Body.le_depth_of_mem rest hfragment
  | .fragment kind operands rest, _, hfragment => by
    simp only [Body.fragments, List.cons_append, List.mem_cons, List.mem_append] at hfragment
    obtain rfl | hinner | hlater := hfragment
    · exact le_rfl
    · exact (Nat.le_succ _).trans (Operands.le_depth_of_mem operands hinner)
    · exact Body.le_depth_of_mem rest hlater

theorem Operands.le_depth_of_mem : ∀ (operands : Operands) {depth : Nat},
    fragment ∈ operands.fragments depth → depth ≤ fragment.depth
  | .none, _, hfragment => by cases hfragment
  | .cons guard body rest, _, hfragment => by
    obtain hinner | hlater := List.mem_append.1 hfragment
    · exact Body.le_depth_of_mem body hinner
    · exact Operands.le_depth_of_mem rest hlater

end

end Deep

/-- The right edge of the box of a fragment. -/
def FragmentBox.right (box : FragmentBox ℚ) : ℚ :=
  box.x + box.width

/-- The boxes that follow a box and lie deeper belong to fragments inside the one of that box, up to the
    first one that does not lie deeper. All of them end a border's width on the left of its right edge. -/
def Stepped (boxes : List (FragmentBox ℚ)) : Prop :=
  ∀ front outer inside back, boxes = front ++ outer :: (inside ++ back) →
    (∀ inner ∈ inside, outer.depth < inner.depth) →
      ∀ inner ∈ inside, inner.right + fragmentPad ≤ outer.right

/-- Boxes are those of fragments that lie in a number of other ones, and of the fragments inside these. No
    box ends on the right of all those that lie at the least depth, so that whatever ends on the right of
    these ends on the right of everything inside them. -/
structure Levelled (depth : Nat) (boxes : List (FragmentBox ℚ)) : Prop where
  deep : ∀ box ∈ boxes, depth ≤ box.depth
  head : ∀ box ∈ boxes.head?, box.depth = depth
  within : ∀ box ∈ boxes, ∃ outer ∈ boxes, outer.depth = depth ∧ box.right ≤ outer.right
  stepped : Stepped boxes

namespace Levelled

variable {depth : Nat}

theorem nil (depth : Nat) : Levelled depth [] :=
  ⟨List.forall_mem_nil _, nofun, List.forall_mem_nil _, fun front _ _ _ hsplit => by simp at hsplit⟩

theorem append {boxes others : List (FragmentBox ℚ)} (hboxes : Levelled depth boxes)
    (hothers : Levelled depth others) : Levelled depth (boxes ++ others) := by
  refine ⟨List.forall_mem_append.2 ⟨hboxes.deep, hothers.deep⟩, fun box hbox => ?_, fun box hbox => ?_, ?_⟩
  · cases boxes with
    | nil => exact hothers.head box hbox
    | cons first rest => exact hboxes.head box hbox
  · obtain hbox | hbox := List.mem_append.1 hbox
    · obtain ⟨outer, houter, hends⟩ := hboxes.within box hbox
      exact ⟨outer, List.mem_append_left _ houter, hends⟩
    · obtain ⟨outer, houter, hends⟩ := hothers.within box hbox
      exact ⟨outer, List.mem_append_right _ houter, hends⟩
  · -- A run of deeper boxes does not lead from the one list into the other, since the other one begins
    -- with a box at the least depth.
    intro front outer inside back hsplit hdeeper
    obtain ⟨middle, rfl, hmiddle⟩ | ⟨middle, rfl, hmiddle⟩ := List.append_eq_append_iff.1 hsplit
    · exact hothers.stepped middle outer inside back hmiddle hdeeper
    cases middle with
    | nil => exact hothers.stepped [] outer inside back hmiddle.symm hdeeper
    | cons first middle =>
      obtain ⟨rfl, hrest⟩ := List.cons.inj hmiddle
      obtain ⟨later, rfl, hlater⟩ | ⟨later, rfl, hlater⟩ := List.append_eq_append_iff.1 hrest
      · exact hboxes.stepped front outer inside later rfl hdeeper
      cases later with
      | nil =>
        rw [List.append_nil] at hdeeper ⊢
        exact hboxes.stepped front outer middle [] (by simp) hdeeper
      | cons next later =>
        have hdepth : next.depth = depth := hothers.head next (by simp [hlater])
        have hleast : depth ≤ outer.depth := hboxes.deep outer (by simp)
        have hnext : outer.depth < next.depth := hdeeper next (by simp)
        omega

/-- A box that ends on the right of the boxes one level deeper also does so of all boxes inside those. -/
theorem cons {box : FragmentBox ℚ} {inner : List (FragmentBox ℚ)} (hdepth : box.depth = depth)
    (hinner : Levelled (depth + 1) inner)
    (hchildren : ∀ child ∈ inner, child.depth = depth + 1 → child.right + fragmentPad ≤ box.right) :
    Levelled depth (box :: inner) := by
  have hall : ∀ other ∈ inner, other.right + fragmentPad ≤ box.right := by
    intro other hother
    obtain ⟨child, hchild, hlevel, hends⟩ := hinner.within other hother
    linarith [hchildren child hchild hlevel]
  refine ⟨List.forall_mem_cons.2 ⟨hdepth.ge, fun other hother => ?_⟩, fun other hother => ?_,
    List.forall_mem_cons.2 ⟨⟨box, by simp, hdepth, le_rfl⟩, fun other hother => ?_⟩, ?_⟩
  · exact (Nat.le_succ depth).trans (hinner.deep other hother)
  · obtain rfl := Option.some.inj hother
    exact hdepth
  · have hother := hall other hother
    simp only [fragmentPad] at hother
    exact ⟨box, by simp, hdepth, by linarith⟩
  · intro front outer inside back hsplit hdeeper
    cases front with
    | nil =>
      obtain ⟨rfl, rfl⟩ := List.cons.inj hsplit
      exact fun other hother => hall other (List.mem_append_left _ hother)
    | cons first front =>
      obtain ⟨rfl, hinside⟩ := List.cons.inj hsplit
      exact hinner.stepped front outer inside back hinside hdeeper

end Levelled

namespace Grid

variable {grid : Grid ℚ}

mutual

/-- Without participants the boxes of fragments stand around each other. To find the boxes that lie
    directly in a fragment, it is enough to look at the depth of those that have been placed in it. -/
theorem placeBody_levelled (husable : grid.Usable) (hparticipants : grid.participants = []) (depth : Nat) :
    ∀ (body : Body) {cursor after : Cursor ℚ} {rows : Rows ℚ}, grid.Lists body.named →
      grid.placeBody depth body cursor = .ok (rows, after) → Levelled depth rows.boxes
  | .empty, _, _, _, _, hplaced => by
    cases hplaced
    exact .nil depth
  | .signal message rest, _, _, _, hlisted, hplaced => by
    obtain ⟨⟨row, middle⟩, _, hplaced⟩ := bind_eq_ok_iff.1 hplaced
    obtain ⟨⟨others, after⟩, hrest, hplaced⟩ := bind_eq_ok_iff.1 hplaced
    cases hplaced
    have hlater := (List.forall_mem_cons.1 (List.forall_mem_cons.1 hlisted).2).2
    have hothers := placeBody_levelled husable hparticipants depth rest hlater hrest
    exact hothers
  | .activation name starts rest, _, _, _, hlisted, hplaced => by
    obtain ⟨⟨bars, middle⟩, _, hplaced⟩ := bind_eq_ok_iff.1 hplaced
    obtain ⟨⟨others, after⟩, hrest, hplaced⟩ := bind_eq_ok_iff.1 hplaced
    cases hplaced
    have hothers := placeBody_levelled husable hparticipants depth rest (List.forall_mem_cons.1 hlisted).2 hrest
    exact hothers
  | .fragment kind operands rest, _, _, _, hlisted, hplaced => by
    obtain ⟨⟨dividers, inner, middle⟩, hoperands, hplaced⟩ := bind_eq_ok_iff.1 hplaced
    obtain ⟨box, hbox, hplaced⟩ := bind_eq_ok_iff.1 hplaced
    obtain ⟨⟨others, after⟩, hrest, hplaced⟩ := bind_eq_ok_iff.1 hplaced
    cases hplaced
    obtain ⟨hinside, hlater⟩ := List.forall_mem_append.1 hlisted
    obtain ⟨_, hfound, _, _, _, hframes, hchildren⟩ := fragmentBox_eq_ok husable kind hinside depth
      _ (middle.y + fragmentBottom) dividers inner.boxes
    cases hbox.symm.trans hfound
    have hinner := placeOperands_levelled husable hparticipants (depth + 1) true operands hinside hoperands
    exact (hinner.cons hframes.depth (hchildren hparticipants)).append
      (placeBody_levelled husable hparticipants depth rest hlater hrest)

theorem placeOperands_levelled (husable : grid.Usable) (hparticipants : grid.participants = [])
    (depth : Nat) (isFirst : Bool) : ∀ (operands : Operands) {cursor after : Cursor ℚ}
      {dividers : List (Divider ℚ)} {rows : Rows ℚ}, grid.Lists operands.named →
        grid.placeOperands depth isFirst operands cursor = .ok (dividers, rows, after) →
          Levelled depth rows.boxes
  | .none, _, _, _, _, _, hplaced => by
    cases hplaced
    exact .nil depth
  | .cons guard body rest, _, _, _, _, hlisted, hplaced => by
    obtain ⟨⟨own, middle⟩, hbody, hplaced⟩ := bind_eq_ok_iff.1 hplaced
    obtain ⟨⟨others, below, after⟩, hrest, hplaced⟩ := bind_eq_ok_iff.1 hplaced
    cases hplaced
    obtain ⟨hinside, hlater⟩ := List.forall_mem_append.1 hlisted
    exact (placeBody_levelled husable hparticipants depth body hinside hbody).append
      (placeOperands_levelled husable hparticipants depth false rest hlater hrest)

end

/-- Without participants the box of a fragment begins one border further to the right for each fragment
    around it. -/
theorem Frames.x_of_nil {fragment : Fragment} {box : FragmentBox ℚ} (hframes : grid.Frames fragment box)
    (hlisted : grid.Lists fragment.operands.named) (hparticipants : grid.participants = []) :
    box.x = grid.spacing.padding + 10 * fragment.depth := by
  obtain ⟨right, hspans, _⟩ := hframes.spans
  simpa only [fragmentPad, ofCount_eq_cast] using hspans.left_of_nil hlisted hparticipants

end Grid

/-- The box of a fragment lies inside the one of another fragment, with the width of a border between
    them on the left and on the right. -/
structure FragmentBox.Borders (outer inner : FragmentBox ℚ) : Prop where
  left : outer.x + 10 ≤ inner.x
  right : inner.x + inner.width + 10 ≤ outer.x + outer.width
  above : outer.y < inner.y
  below : inner.y + inner.height < outer.y + outer.height

namespace Layout

variable {layout : Layout ℚ} {grid : Grid ℚ} {diagram : Diagram}

/-- No box of a fragment reaches into the padding on the right. -/
theorem ofDiagram_boxes_le {measure : String → Size ℚ} {spacing : Spacing ℚ}
    (hdescends : spacing.Descends measure)
    (hrefers : ∀ name ∈ diagram.content.body.named, name ∈ diagram.names)
    (hlayout : ofDiagram measure spacing diagram = .ok layout) :
    ∀ box ∈ layout.fragments, box.x + box.width + spacing.padding ≤ layout.width := by
  obtain ⟨_, columns, hfound, _, ⟨_, _, rfl⟩ | ⟨rows, after, spots, _, _, _, hcomposed⟩⟩ :=
    ofDiagram_composed measure hdescends hrefers
  · cases hlayout.symm.trans hfound
    rw [ofTitle_fragments]
    exact List.forall_mem_nil _
  · cases hlayout.symm.trans hfound
    rw [hcomposed.fragments]
    exact hcomposed.boxes

/-- The fragments of a diagram stand in spots in the order of the source. Behind the box of each fragment
    come the spots of its operands, which it borders. It begins one border further to the right for each
    fragment around it, and ends in front of the padding. -/
def Bordered (layout : Layout ℚ) (padding : ℚ) (diagram : Diagram) : Prop :=
  ∃ spots : List Spot, layout.Shows diagram spots ∧
    ∀ (front : List Spot) (fragment : Fragment) (box : FragmentBox ℚ) (rest : List Spot),
      spots = front ++ .box fragment box :: rest → ∃ (operands : List (List Spot)) (back : List Spot),
        rest = operands.flatten ++ back ∧
        operands.map (List.map Spot.item) = fragment.operands.items (fragment.depth + 1) ∧
        box.kind = fragment.kind ∧ box.label = fragment.operands.label ∧ box.depth = fragment.depth ∧
        box.x = padding + 10 * fragment.depth ∧ box.x + box.width + padding ≤ layout.width ∧
        ∀ inner child, .box inner child ∈ operands.flatten → box.Borders child

/-- Without participants the box of a fragment borders those of all fragments inside it, since they lie
    deeper and come right behind it. -/
theorem Arranged.borders {spots : List Spot} (harranged : layout.Arranged grid diagram spots)
    (hlisted : grid.Lists diagram.content.body.named) (hparticipants : grid.participants = [])
    (hstepped : Stepped layout.fragments) {front : List Spot} {fragment : Fragment} {box : FragmentBox ℚ}
    {operands : List (List Spot)} {back : List Spot}
    (hsplit : spots = front ++ .box fragment box :: (operands.flatten ++ back))
    (hitems : operands.map (List.map Spot.item) = fragment.operands.items (fragment.depth + 1))
    (hencloses : box.Encloses front operands back) :
    ∀ inner child, .box inner child ∈ operands.flatten → box.Borders child := by
  obtain ⟨_, _, _, _, hframes, hown, _⟩ := harranged.fragment hlisted hsplit
  have hfragment {inner : Fragment} {child : FragmentBox ℚ} (hchild : .box inner child ∈ operands.flatten) :
      inner ∈ fragment.operands.fragments (fragment.depth + 1) ∧ grid.Frames inner child := by
    have hspot : .box inner child ∈ spots := by
      rw [hsplit]
      exact List.mem_append_right _ (List.mem_cons_of_mem _ (List.mem_append_left _ hchild))
    exact ⟨Spot.fragment_mem_fragments hitems hchild, harranged.fits _ hspot⟩
  have hboxes : layout.fragments = front.filterMap Spot.box? ++ box ::
      (operands.flatten.filterMap Spot.box? ++ back.filterMap Spot.box?) := by
    rw [← harranged.shows.fragments, hsplit, List.filterMap_append, List.filterMap_cons,
      List.filterMap_append]
    rfl
  have hdeeper : ∀ child ∈ operands.flatten.filterMap Spot.box?, box.depth < child.depth := by
    intro child hchild
    obtain ⟨inner, hspot⟩ := Spot.mem_filterMap_box?.1 hchild
    obtain ⟨hinside, hinner⟩ := hfragment hspot
    rw [hframes.depth, hinner.depth]
    exact Operands.le_depth_of_mem _ hinside
  intro inner child hchild
  obtain ⟨hinside, hinner⟩ := hfragment hchild
  have hstart := hframes.x_of_nil hown hparticipants
  have hchildStart := hinner.x_of_nil
    (fun name hname => hown name ((Operands.inside _ hinside).1 hname)) hparticipants
  have hdepth : (fragment.depth : ℚ) + 1 ≤ inner.depth := mod_cast Operands.le_depth_of_mem _ hinside
  have hends := hstepped _ box _ _ hboxes hdeeper child (Spot.mem_filterMap_box?.2 ⟨inner, hchild⟩)
  have habove : box.y + 28 ≤ child.y := hencloses.top _ hchild
  have hbelow : child.y + child.height + 10 ≤ box.y + box.height := hencloses.bottom _ hchild
  simp only [FragmentBox.right, fragmentPad] at hends
  constructor <;> linarith

/-- In a diagram of nothing but fragments the boxes stand around each other. The sign of the padding is
    not needed, and neither is that of the widths of labels, since a box only grows for its header. -/
theorem ofDiagram_bordered {measure : String → Size ℚ} (hheight : ∀ text, 0 ≤ (measure text).height)
    (options : Options ℚ) {diagram : Diagram} (hparticipants : diagram.participants = [])
    (hnamed : diagram.content.body.named = []) :
    ∃ layout, ofDiagram measure (Spacing.ofOptions options) diagram = .ok layout ∧
      layout.Bordered (Spacing.ofOptions options).padding diagram := by
  have hdescends := Spacing.descends_of_height (Spacing.ofOptions options) hheight
  have hrefers : ∀ name ∈ diagram.content.body.named, name ∈ diagram.names := by simp [hnamed]
  obtain ⟨layout, hlayout⟩ := ofDiagram_of_listed measure (Spacing.ofOptions options) hrefers
  obtain ⟨columns, hcolumns, hordered, _⟩ := Columns.ofDiagram_eq_ok measure (Spacing.ofOptions options)
    fun signal hsignal =>
      have hnames := Body.signals_named diagram.content.body hsignal
      ⟨hrefers signal.source hnames.1, hrefers signal.target hnames.2⟩
  obtain ⟨spots, harranged⟩ := arranged_of_columns hdescends hrefers hcolumns hordered hlayout
  obtain ⟨y, rows, after, hbody, _, hboxes⟩ := (ofDiagram_placedOn hcolumns hlayout).rows
  have husable : Grid.Usable ⟨diagram.participants, columns, Spacing.ofOptions options, measure⟩ :=
    ⟨hordered, hdescends⟩
  have hlevelled := Grid.placeBody_levelled husable hparticipants 0 diagram.content.body hrefers hbody
  rw [← hboxes] at hlevelled
  refine ⟨layout, hlayout, spots, harranged.shows, fun front fragment box rest hsplit => ?_⟩
  obtain ⟨_, _, _, _, hframes, hlisted, _⟩ := harranged.fragment hrefers hsplit
  obtain ⟨operands, back, rfl, hitems, hencloses, _⟩ := harranged.stacked front fragment box rest hsplit
  have hbox : box ∈ layout.fragments := by
    rw [← harranged.shows.fragments]
    exact Spot.mem_filterMap_box?.2 ⟨fragment, by simp [hsplit]⟩
  exact ⟨operands, back, rfl, hitems, hframes.kind, hframes.label, hframes.depth,
    hframes.x_of_nil hlisted hparticipants, ofDiagram_boxes_le hdescends hrefers hlayout box hbox,
    harranged.borders hrefers hparticipants hlevelled.stepped hsplit hitems hencloses⟩

theorem ofDiagram_bordered_wide :
    let innermost : Operands := .cons "a condition that takes many words to say" .empty .none
    let inner : Operands := .cons "" (.fragment "opt" innermost .empty) .none
    let outer : Operands := .cons "yes" (.fragment "loop" inner (.fragment "par" .none .empty))
      (.cons "no" (.fragment "critical" innermost .empty) .none)
    let diagram : Diagram :=
      { title := some "Retries"
        content := ⟨"", .fragment "alt" outer (.fragment "break" .none .empty)⟩ }
    (∀ text, 0 ≤ (evenSize (7 : ℚ) 15 text).height) ∧ diagram.participants = [] ∧
      diagram.content.body.named = [] ∧
      ∃ layout, ofDiagram (evenSize (7 : ℚ) 15) (Spacing.ofOptions { padding := some (-5) }) diagram =
          .ok layout ∧ layout.Bordered (-5) diagram := by
  intro innermost inner outer diagram
  have hheight : ∀ text, 0 ≤ (evenSize (7 : ℚ) 15 text).height := fun text => by norm_num [evenSize]
  exact ⟨hheight, rfl, rfl, ofDiagram_bordered hheight { padding := some (-5) } rfl rfl⟩

end Layout

end SequenceChart
