import SequenceChart.Drawing.OfLayout
import SequenceChart.Layout.OfDiagram

namespace SequenceChart

mutual

/-- The headers of the fragments of a body. A fragment comes before those inside it. -/
def Body.headers : Body → List String
  | .empty => []
  | .signal _ rest => rest.headers
  | .activation _ _ rest => rest.headers
  | .fragment kind operands rest =>
    Label.header kind operands.label :: (operands.headers ++ rest.headers)

/-- The headers of the fragments of operands. -/
def Operands.headers : Operands → List String
  | .none => []
  | .cons _ body rest => body.headers ++ rest.headers

end

/-- The texts that a layout asks the sizes of, in order. -/
def Diagram.measuredTexts (diagram : Diagram) : List String :=
  diagram.content.body.headers ++ (nonempty? diagram.title).toList ++
    diagram.participants.map Participant.label ++
    (diagram.signals.map Signal.label).filter (· ≠ "")

/-- Why a diagram is not drawn, or not to its end. -/
inductive RenderError (ε : Type) where
  | layout (error : LayoutError)
  | palette (error : PaletteError)
  | surface (error : ε)
  deriving DecidableEq

variable {α σ ε : Type} [Add α] [Sub α] [Mul α] [Div α] [LT α] [DecidableLT α]
  [∀ n, OfNat α n] [Coordinate α]

/-- Asks a surface for the sizes of texts. -/
def Surface.measureAll (surface : Surface α σ ε) (texts : List String) :
    ExceptT ε (StateM σ) Unit :=
  (Drawing.ofCalls (texts.map Call.measure)).run surface

/-- Lays out a diagram and draws it. Sizes are asked of the surface, which must answer as `measure`
    does, before anything else happens. The layout is returned. -/
def Diagram.render (surface : Surface α σ ε) (measure : String → Size α) (options : Options α)
    (diagram : Diagram) : ExceptT (RenderError ε) (StateM σ) (Layout α) := do
  (surface.measureAll diagram.measuredTexts).adapt RenderError.surface
  let layout ← ExceptT.mk (pure
    ((Layout.ofDiagram measure (Spacing.ofOptions options) diagram).mapError RenderError.layout))
  let palette ← ExceptT.mk (pure ((Palette.ofOptions options).mapError RenderError.palette))
  ((Drawing.ofLayout measure palette layout).run surface).adapt RenderError.surface
  return layout

end SequenceChart
