import SequenceChart.Layout.Rows

namespace SequenceChart

namespace Layout

open Distance

variable {α : Type} [Add α] [Sub α] [Mul α] [Div α] [LT α] [DecidableLT α] [∀ n, OfNat α n]

/-- The layout of a diagram without participants and content: its title, if it has one. -/
def ofTitle (spacing : Spacing α) : Option (String × Size α) → Layout α
  | none => { width := 0, height := 0 }
  | some (text, size) =>
    { width := size.width + spacing.padding * 2
      height := size.height + spacing.padding * 2
      title := some ⟨text, spacing.padding, spacing.padding, size.width, size.height⟩ }

/-- The height that all boxes of participants share. -/
def boxHeightOf (measure : String → Size α) : List Participant → α
  | [] => 0
  | participants =>
    participants.foldl
      (fun height participant => larger height ((measure participant.label).height + boxMarginY))
      boxHeight

/-- The layout of a diagram with participants or content. -/
def ofRows (grid : Grid α) (content : Body) (title : Option (String × Size α)) :
    Except LayoutError (Layout α) := do
  let padding := grid.spacing.padding
  let y := match title with
    | none => padding
    | some (_, size) => padding + (size.height + titleGap)
  let boxHeight := boxHeightOf grid.measure grid.participants
  let (rows, cursor) ← grid.placeBody 0 content { y := y + boxHeight + headerGap }
  let unclosed ← grid.closeAllBars cursor.y cursor.opened
  let bottom := cursor.y + footerGap
  let right := rows.boxes.foldl (fun right box => larger right (box.x + box.width))
    grid.columns.right
  let right := match title with
    | none => right
    | some (_, size) => larger right (padding + size.width)
  let width := right + padding
  return {
    width
    height := bottom + padding
    title := title.map fun (text, size) =>
      ⟨text, (width - size.width) / 2, padding, size.width, size.height⟩
    participants := grid.participants.mapIdx fun i participant =>
      ⟨participant.name, participant.label, grid.center i, y, grid.boxWidth i, boxHeight⟩
    lifelines := grid.participants.mapIdx fun i participant =>
      ⟨participant.name, grid.center i, y + boxHeight, bottom⟩
    signals := rows.signals
    activations := rows.bars ++ unclosed
    fragments := rows.boxes }

/-- The layout of a diagram, given the sizes of labels. -/
def ofDiagram (measure : String → Size α) (spacing : Spacing α) (diagram : Diagram) :
    Except LayoutError (Layout α) := do
  let title := (nonempty? diagram.title).map fun text => (text, measure text)
  if diagram.participants.isEmpty && diagram.content.body = .empty then
    return ofTitle spacing title
  else
    let columns ← Columns.ofDiagram measure spacing diagram
    ofRows ⟨diagram.participants, columns, spacing, measure⟩ diagram.content.body title

end Layout

end SequenceChart
