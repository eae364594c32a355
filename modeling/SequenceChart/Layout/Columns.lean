import SequenceChart.Geometry
import SequenceChart.Layout.Basic
import SequenceChart.Layout.Spacing

namespace SequenceChart

mutual

/-- How deeply fragments are nested in a body. -/
def Body.depth : Body → Nat
  | .empty => 0
  | .signal _ rest => rest.depth
  | .activation _ _ rest => rest.depth
  | .fragment _ operands rest => max (operands.depth + 1) rest.depth

/-- How deeply fragments are nested in operands. -/
def Operands.depth : Operands → Nat
  | .none => 0
  | .cons _ body rest => max body.depth rest.depth

end

/-- The column of a participant. Of several with one name it is the last. -/
def column? (name : String) : List Participant → Option Nat
  | [] => none
  | participant :: rest =>
    match column? name rest with
    | some i => some (i + 1)
    | none => if participant.name = name then some 0 else none

/-- The column of a participant, which must be listed. -/
def columnOf (participants : List Participant) (name : String) : Except LayoutError Nat :=
  match column? name participants with
  | some i => .ok i
  | none => .error (.unknownParticipant name)

/-- The widths of the boxes, the centres of the columns, and the right end of what is drawn beside
    them. -/
structure Columns (α : Type) where
  widths : List α
  centers : List α
  right : α
  deriving DecidableEq

/-- The room that a signal between two columns needs. -/
structure Span (α : Type) where
  low : Nat
  high : Nat
  need : α
  deriving DecidableEq

/-- The room that a signal to its source needs on the right of its column. -/
structure Overhang (α : Type) where
  column : Nat
  need : α
  deriving DecidableEq

namespace Columns

open Distance

variable {α : Type} [Add α] [Sub α] [Mul α] [Div α] [LT α] [DecidableLT α] [∀ n, OfNat α n]

/-- The size of a signal's label. A signal without a label needs no room. -/
def signalSize (measure : String → Size α) (signal : Signal) : Size α :=
  if signal.label = "" then ⟨0, 0⟩ else measure signal.label

/-- The room that signals need, those between columns apart from those to their sources. -/
def demands (measure : String → Size α) (participants : List Participant) :
    List Signal → Except LayoutError (List (Span α) × List (Overhang α))
  | [] => .ok ([], [])
  | signal :: rest => do
    let source ← columnOf participants signal.source
    let target ← columnOf participants signal.target
    let (spans, overhangs) ← demands measure participants rest
    let width := (signalSize measure signal).width
    if source = target then
      return (spans, ⟨source, loopWidth + labelGap + width + labelPad⟩ :: overhangs)
    else
      return (⟨min source target, max source target, width + labelPad * 2⟩ :: spans, overhangs)

/-- The width of the box of a participant. -/
def boxWidthOf (measure : String → Size α) (participant : Participant) : α :=
  larger ((measure participant.label).width + boxMarginX) boxWidth

/-- The distance between neighbouring columns before any signal is looked at. -/
def gapBetween (participantGap left right : α) : α :=
  larger participantGap ((left + right) / 2 + boxClearance)

/-- Widens the last gap of a span by what the span lacks. -/
def widen (gaps : List α) (span : Span α) : List α :=
  let room := total ((gaps.drop span.low).take (span.high - span.low))
  if room < span.need then gaps.modify (span.high - 1) (· + (span.need - room)) else gaps

/-- Widens the gap on the right of a column to what the column needs. -/
def clear (gaps : List α) (overhang : Overhang α) : List α :=
  gaps.modify overhang.column (larger · overhang.need)

/-- The gaps between columns. Narrow spans go first, so that wide ones add only what is still
    missing. -/
def gaps (participantGap : α) (widths : List α) (spans : List (Span α))
    (overhangs : List (Overhang α)) : List α :=
  let least := List.zipWith (gapBetween participantGap) widths (widths.drop 1)
  let narrowFirst := spans.mergeSort fun a b => a.high - a.low ≤ b.high - b.low
  overhangs.foldl clear (narrowFirst.foldl widen least)

/-- The centres of columns, given the first one and the gaps. -/
def centersFrom (x : α) : List α → List α
  | [] => [x]
  | gap :: rest => x :: centersFrom (x + gap) rest

/-- The columns of a diagram. On both sides there is room for the borders of nested fragments. -/
def ofDiagram (measure : String → Size α) (spacing : Spacing α) (diagram : Diagram) :
    Except LayoutError (Columns α) := do
  let widths := diagram.participants.map (boxWidthOf measure)
  let (spans, overhangs) ← demands measure diagram.participants diagram.signals
  let border := fragmentPad * ofCount diagram.content.body.depth
  match widths with
  | [] => return ⟨[], [], spacing.padding⟩
  | first :: _ =>
    let gaps := gaps spacing.participantGap widths spans overhangs
    let centers := centersFrom (spacing.padding + border + first / 2) gaps
    let lastRight := centers.getLastD 0 + widths.getLastD 0 / 2
    let right := overhangs.foldl
      (fun right overhang => larger right (centers.getD overhang.column 0 + overhang.need))
      lastRight
    return ⟨widths, centers, right + border⟩

end Columns

end SequenceChart
