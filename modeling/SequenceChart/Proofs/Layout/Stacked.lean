import SequenceChart.Font
import SequenceChart.Proofs.Layout.Composed

namespace SequenceChart

open Distance

/-- A signal has its line at or above a height, or a fragment its lower edge. -/
def Spot.Above (y : ℚ) : Spot → Prop
  | .row place => place.y ≤ y
  | .box _ place => place.bottom ≤ y

/-- A signal has its line at or below a height, or a fragment its upper edge. -/
def Spot.Below (y : ℚ) : Spot → Prop
  | .row place => y ≤ place.y
  | .box _ place => y ≤ place.y

/-- How the box of a fragment lies between what is in front of it in the source, what its operands
    hold, and what comes behind it. Each divider parts the operands up to one from those after it. -/
structure FragmentBox.Parts (box : FragmentBox ℚ) (front : List Spot) (operands : List (List Spot))
    (back : List Spot) : Prop where
  height : 0 < box.height
  rowsAbove : ∀ row, .row row ∈ front → row.y < box.y
  rowsInside : ∀ row, .row row ∈ operands.flatten → box.y < row.y ∧ row.y < box.bottom
  rowsBelow : ∀ row, .row row ∈ back → box.bottom < row.y
  boxesInside : ∀ inner child, .box inner child ∈ operands.flatten →
    box.y < child.y ∧ child.bottom < box.bottom
  boxesBelow : ∀ other later, .box other later ∈ back → box.bottom ≤ later.y
  dividers : box.dividers.length = operands.length - 1
  increasing : box.dividers.Pairwise fun upper lower => upper.y < lower.y
  inside : ∀ divider ∈ box.dividers, box.y < divider.y ∧ divider.y < box.bottom
  parted : ∀ k divider, box.dividers[k]? = some divider →
    (∀ spot ∈ (operands.take (k + 1)).flatten, spot.Above divider.y) ∧
      ∀ spot ∈ (operands.drop (k + 1)).flatten, spot.Below divider.y

theorem Spot.above_of_bottom_le {spot : Spot} {y : ℚ} (hbottom : spot.bottom ≤ y) : spot.Above y := by
  cases spot with
  | row row => exact row.y_lt_bottom.le.trans hbottom
  | box fragment box => exact hbottom

namespace Grid

variable {grid : Grid ℚ}

theorem Fits.below_of_le_top (hheight : ∀ text, 0 ≤ (grid.measure text).height) {spot : Spot}
    (hfits : grid.Fits spot) {y : ℚ} (htop : y ≤ spot.top) : spot.Below y := by
  cases spot with
  | row row => exact htop.trans (Carries.top_lt_y hheight hfits).le
  | box fragment box => exact htop

/-- Labels take room above the lines of signals, so that no line is where a row begins. -/
theorem parts_of_encloses (hheight : ∀ text, 0 ≤ (grid.measure text).height) {box : FragmentBox ℚ}
    {front back : List Spot} {operands : List (List Spot)} (hencloses : box.Encloses front operands back)
    (hinside : ∀ spot ∈ operands.flatten, grid.Fits spot) (hback : ∀ spot ∈ back, grid.Fits spot) :
    box.Parts front operands back := by
  obtain ⟨hbox, hfront, htop, hbottom, hbelow, hdivided⟩ := hencloses
  simp only [fragmentHeader, fragmentBottom] at hbox htop hbottom hdivided
  refine ⟨by linarith, fun row hrow => ?_, fun row hrow => ?_, fun row hrow => ?_,
    fun inner child hchild => ?_, fun other later hlater => hbelow _ hlater, hdivided.length,
    hdivided.increasing, fun divider hdivider => ?_, fun k divider hdivider => ⟨?_, ?_⟩⟩
  · exact row.y_lt_bottom.trans_le (hfront row hrow)
  · have hupper : box.y + 28 ≤ row.top := htop _ hrow
    have hlower : row.bottom + 10 ≤ box.bottom := hbottom _ hrow
    have hline := Carries.top_lt_y hheight (hinside _ hrow)
    have hend := row.y_lt_bottom
    constructor <;> linarith
  · exact (hbelow _ hrow).trans_lt (Carries.top_lt_y hheight (hback _ hrow))
  · have hupper : box.y + 28 ≤ child.y := htop _ hchild
    have hlower : child.bottom + 10 ≤ box.bottom := hbottom _ hchild
    constructor <;> linarith
  · obtain ⟨hupper, hlower⟩ := hdivided.between divider hdivider
    simp only [dividerHeight] at hlower
    constructor <;> linarith
  · exact fun spot hspot => Spot.above_of_bottom_le (hdivided.above k divider hdivider spot hspot)
  · intro spot hspot
    have hspotTop := hdivided.below k divider hdivider spot hspot
    have hmem : spot ∈ operands.flatten := by
      rw [← List.take_append_drop (k + 1) operands, List.flatten_append]
      exact List.mem_append_right _ hspot
    simp only [dividerHeight] at hspotTop
    exact (hinside spot hmem).below_of_le_top hheight (by linarith)

end Grid

namespace Layout

/-- The signals and fragments of a diagram stand in spots in the order of the source. Behind the box
    of each fragment come the spots of its operands, and the box parts them from all others. -/
def Parted (layout : Layout ℚ) (diagram : Diagram) : Prop :=
  ∃ spots : List Spot, layout.Shows diagram spots ∧
    ∀ (front : List Spot) (fragment : Fragment) (box : FragmentBox ℚ) (rest : List Spot),
      spots = front ++ .box fragment box :: rest → ∃ (operands : List (List Spot)) (back : List Spot),
        rest = operands.flatten ++ back ∧
        operands.map (List.map Spot.item) = fragment.operands.items (fragment.depth + 1) ∧
        box.kind = fragment.kind ∧ box.label = fragment.operands.label ∧ box.depth = fragment.depth ∧
        box.Parts front operands back

/-- From top to bottom the box of a fragment has in it what is inside the fragment, and nothing else.
    No sign of the distances is needed, since every row has room around its line. -/
theorem ofDiagram_parted {measure : String → Size ℚ} (hheight : ∀ text, 0 ≤ (measure text).height)
    (options : Options ℚ) {diagram : Diagram}
    (hrefers : ∀ name ∈ diagram.content.body.named, name ∈ diagram.names) :
    ∃ layout, ofDiagram measure (Spacing.ofOptions options) diagram = .ok layout ∧
      layout.Parted diagram := by
  obtain ⟨layout, spots, columns, hlayout, hshows, hfits, _, hstacked, _⟩ :=
    ofDiagram_arranged measure (Spacing.descends_of_height _ hheight) hrefers
  refine ⟨layout, hlayout, spots, hshows, fun front fragment box rest hsplit => ?_⟩
  obtain ⟨operands, back, rfl, hitems, hencloses, _⟩ := hstacked front fragment box rest hsplit
  rw [hsplit] at hfits
  obtain ⟨hframes, hrest⟩ := List.forall_mem_cons.1 (List.forall_mem_append.1 hfits).2
  obtain ⟨hinside, hback⟩ := List.forall_mem_append.1 hrest
  exact ⟨operands, back, rfl, hitems, hframes.kind, hframes.label, hframes.depth,
    Grid.parts_of_encloses hheight hencloses hinside hback⟩

theorem ofDiagram_parted_alternatives :
    let inner : Operands := .cons "" (.signal ⟨"B", "B", "again", .dashed, true⟩ .empty) .none
    let outer : Operands := .cons "yes" (.fragment "loop" inner .empty) (.cons "no" .empty .none)
    let diagram : Diagram :=
      { participants := [⟨"A", "A"⟩, ⟨"B", "B"⟩]
        content := ⟨"", .signal ⟨"A", "B", "", .solid, true⟩ (.fragment "alt" outer .empty)⟩ }
    (∀ text, 0 ≤ (evenSize (7 : ℚ) 15 text).height) ∧
      (∀ name ∈ diagram.content.body.named, name ∈ diagram.names) ∧
      ∃ layout, ofDiagram (evenSize (7 : ℚ) 15) (Spacing.ofOptions { rowHeight := some (-5) }) diagram =
          .ok layout ∧ layout.Parted diagram := by
  intro inner outer diagram
  have hheight : ∀ text, 0 ≤ (evenSize (7 : ℚ) 15 text).height := fun text => by norm_num [evenSize]
  have hrefers : ∀ name ∈ diagram.content.body.named, name ∈ diagram.names := by decide
  exact ⟨hheight, hrefers, ofDiagram_parted hheight { rowHeight := some (-5) } hrefers⟩

end Layout

end SequenceChart
