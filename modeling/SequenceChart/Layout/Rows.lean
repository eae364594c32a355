import SequenceChart.Label
import SequenceChart.Layout.Columns

namespace SequenceChart

mutual

/-- The columns that the signals and activations of a body involve. -/
def Body.involved (participants : List Participant) : Body → Except LayoutError (List Nat)
  | .empty => .ok []
  | .signal message rest => do
    let source ← columnOf participants message.source
    let target ← columnOf participants message.target
    let others ← rest.involved participants
    return source :: target :: others
  | .activation name _ rest => do
    let column ← columnOf participants name
    let others ← rest.involved participants
    return column :: others
  | .fragment _ operands rest => do
    let inner ← operands.involved participants
    let others ← rest.involved participants
    return inner ++ others

/-- The columns that operands involve. -/
def Operands.involved (participants : List Participant) :
    Operands → Except LayoutError (List Nat)
  | .none => .ok []
  | .cons _ body rest => do
    let inner ← body.involved participants
    let others ← rest.involved participants
    return inner ++ others

end

/-- The starts of the open activations of every participant that had one, the innermost first.
    Participants are in the order of their first activation or deactivation. -/
abbrev OpenBars (α : Type) := List (String × List α)

/-- How far down rows have been placed. -/
structure Cursor (α : Type) where
  y : α
  index : Nat := 0
  lastSignal : Option α := none
  opened : OpenBars α := []
  deriving DecidableEq

/-- What has been placed. -/
structure Rows (α : Type) where
  signals : List (SignalRow α) := []
  bars : List (ActivationBar α) := []
  boxes : List (FragmentBox α) := []
  deriving DecidableEq

/-- Rows above other ones. -/
def Rows.append {α : Type} (above below : Rows α) : Rows α where
  signals := above.signals ++ below.signals
  bars := above.bars ++ below.bars
  boxes := above.boxes ++ below.boxes

instance {α : Type} : Append (Rows α) where
  append := Rows.append

/-- What rows are placed by: the columns, the distances, and the sizes of labels. -/
structure Grid (α : Type) where
  participants : List Participant
  columns : Columns α
  spacing : Spacing α
  measure : String → Size α

namespace OpenBars

variable {α : Type}

/-- The open activations of a participant. -/
def get (bars : OpenBars α) (name : String) : List α :=
  (bars.lookup name).getD []

/-- Replaces the open activations of a participant. -/
def set (name : String) (starts : List α) : OpenBars α → OpenBars α
  | [] => [(name, starts)]
  | (other, own) :: rest =>
    if other = name then (name, starts) :: rest else (other, own) :: set name starts rest

end OpenBars

namespace Grid

open Distance

variable {α : Type} [Add α] [Sub α] [Mul α] [Div α] [LT α] [DecidableLT α] [∀ n, OfNat α n]

/-- The centre of a column. -/
def center (grid : Grid α) (column : Nat) : α :=
  grid.columns.centers.getD column 0

/-- The width of the box of a column. -/
def boxWidth (grid : Grid α) (column : Nat) : α :=
  grid.columns.widths.getD column 0

/-- The height of the label of a signal and of the gap below it. -/
def labelBand (grid : Grid α) (signal : Signal) : α :=
  if signal.label = "" then labelGap
  else (Columns.signalSize grid.measure signal).height + labelGap

/-- Places a signal below its label. The loop of a signal to its source hangs below its row. -/
def placeSignal (grid : Grid α) (signal : Signal) (cursor : Cursor α) :
    Except LayoutError (SignalRow α × Cursor α) := do
  let source ← columnOf grid.participants signal.source
  let target ← columnOf grid.participants signal.target
  let size := Columns.signalSize grid.measure signal
  let band := grid.labelBand signal
  let y := cursor.y + band
  let row := larger grid.spacing.rowHeight (band + labelGap * 2)
  let below := y + (row - band)
  let placed : SignalRow α :=
    { index := cursor.index, source := signal.source, target := signal.target
      label := signal.label, style := signal.style, hasHead := signal.hasHead
      startX := grid.center source, endX := grid.center target, y, isSelf := signal.isSelf
      labelWidth := size.width, labelHeight := size.height }
  return (placed,
    { cursor with
      y := if signal.isSelf then below + loopRow else below
      index := cursor.index + 1
      lastSignal := some y })

/-- The bar of an activation. Each bar inside others is half its width further to the right. -/
def bar (grid : Grid α) (name : String) (top bottom : α) (level : Nat) :
    Except LayoutError (ActivationBar α) := do
  let column ← columnOf grid.participants name
  return {
    participant := name
    x := grid.center column - barWidth / 2 + ofCount level * barWidth / 2
    top, bottom, width := barWidth }

/-- Begins or ends an activation at the last signal. An activation that would have no height gets
    half a row. -/
def placeActivation (grid : Grid α) (name : String) (starts : Bool) (cursor : Cursor α) :
    Except LayoutError (List (ActivationBar α) × Cursor α) := do
  let own := cursor.opened.get name
  if starts then
    let start := cursor.lastSignal.getD cursor.y
    return ([], { cursor with opened := cursor.opened.set name (start :: own) })
  else
    match own with
    | [] => return ([], { cursor with opened := cursor.opened.set name [] })
    | start :: outer =>
      let least := start + grid.spacing.rowHeight / 2
      let stop := match cursor.lastSignal with
        | none => least
        | some last => if start < last then last else least
      let placed ← grid.bar name start stop outer.length
      return ([placed], { cursor with opened := cursor.opened.set name outer })

/-- The outermost columns that a fragment involves. One that involves none extends over all of
    them. -/
def extent? (grid : Grid α) (operands : Operands) : Except LayoutError (Option (Nat × Nat)) := do
  let involved ← operands.involved grid.participants
  let columns := if involved.isEmpty then List.range grid.columns.centers.length else involved
  match columns with
  | [] => return none
  | first :: rest => return some (rest.foldl min first, rest.foldl max first)

/-- The left and the right edge of a fragment before its header is looked at. In a diagram without
    participants it stands around the fragments directly inside it. -/
def edges (grid : Grid α) (operands : Operands) (depth : Nat) (inner : List (FragmentBox α)) :
    Except LayoutError (α × α) := do
  match ← grid.extent? operands with
  | some (low, high) =>
    let inset := fragmentPad * ofCount (operands.depth + 1)
    return (grid.center low - grid.boxWidth low / 2 - inset,
      grid.center high + grid.boxWidth high / 2 + inset)
  | none =>
    let left := grid.spacing.padding + fragmentPad * ofCount depth
    let children := inner.filter (·.depth = depth + 1)
    return (left, children.foldl
      (fun right child => larger right (child.x + child.width + fragmentPad)) left)

/-- The box of a fragment around what is placed inside it. It is wide enough for its header. -/
def fragmentBox (grid : Grid α) (kind : String) (operands : Operands) (depth : Nat)
    (top bottom : α) (dividers : List (Divider α)) (inner : List (FragmentBox α)) :
    Except LayoutError (FragmentBox α) := do
  let (left, right) ← grid.edges operands depth inner
  let header := grid.measure (Label.header kind operands.label)
  let right := larger right (left + header.width + tabPad * 2)
  return {
    kind, label := operands.label, x := left, y := top, width := right - left
    height := bottom - top, depth, dividers }

mutual

/-- Places a body from the cursor downwards. -/
def placeBody (grid : Grid α) (depth : Nat) :
    Body → Cursor α → Except LayoutError (Rows α × Cursor α)
  | .empty, cursor => .ok ({}, cursor)
  | .signal message rest, cursor => do
    let (placed, cursor) ← grid.placeSignal message cursor
    let (rows, cursor) ← placeBody grid depth rest cursor
    return ({ signals := [placed] } ++ rows, cursor)
  | .activation name starts rest, cursor => do
    let (placed, cursor) ← grid.placeActivation name starts cursor
    let (rows, cursor) ← placeBody grid depth rest cursor
    return ({ bars := placed } ++ rows, cursor)
  | .fragment kind operands rest, cursor => do
    let top := cursor.y
    let (dividers, inner, cursor) ← placeOperands grid (depth + 1) true operands
      { cursor with y := cursor.y + fragmentHeader }
    let bottom := cursor.y + fragmentBottom
    let box ← grid.fragmentBox kind operands depth top bottom dividers inner.boxes
    let (rows, cursor) ← placeBody grid depth rest { cursor with y := bottom }
    return ({ inner with boxes := box :: inner.boxes } ++ rows, cursor)

/-- Places operands from the cursor downwards. All but the first one have a divider above. -/
def placeOperands (grid : Grid α) (depth : Nat) (isFirst : Bool) :
    Operands → Cursor α → Except LayoutError (List (Divider α) × Rows α × Cursor α)
  | .none, cursor => .ok ([], {}, cursor)
  | .cons guard body rest, cursor => do
    let dividers : List (Divider α) := if isFirst then [] else [⟨cursor.y, guard⟩]
    let start := if isFirst then cursor.y else cursor.y + dividerHeight
    let (rows, cursor) ← placeBody grid depth body { cursor with y := start }
    let (others, below, cursor) ← placeOperands grid depth false rest cursor
    return (dividers ++ others, rows ++ below, cursor)

end

/-- The bars of the activations of one participant that are still open at the end, the outermost
    first. They end half a row above the cursor, unless they start below that. -/
def closeBars (grid : Grid α) (name : String) (y : α) :
    List α → Except LayoutError (List (ActivationBar α))
  | [] => .ok []
  | start :: outer => do
    let others ← closeBars grid name y outer
    let placed ← grid.bar name start (larger (y - grid.spacing.rowHeight / 2) start) outer.length
    return others ++ [placed]

/-- The bars of all activations that are still open at the end. -/
def closeAllBars (grid : Grid α) (y : α) :
    OpenBars α → Except LayoutError (List (ActivationBar α))
  | [] => .ok []
  | (name, starts) :: rest => do
    let own ← grid.closeBars name y starts
    let others ← closeAllBars grid y rest
    return own ++ others

end Grid

end SequenceChart
