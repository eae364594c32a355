import SequenceChart.Drawing.Render
import SequenceChart.Svg.Canvas
import SequenceChart.Text.Percent

namespace SequenceChart.Svg

/-- Lines joined into one text. -/
def joinLines (lines : List String) : String :=
  "\n".intercalate lines

/-- The element that loads the font of the labels and applies it to them. -/
def styleBlock (family : String) : String :=
  joinLines [
    "<style>",
    "  @import url('https://fonts.googleapis.com/css2?family=" ++ Text.percentEncoded family ++
      ":wght@400;500;600;700&amp;display=swap');",
    "  text \x7b font-family: '" ++ family ++ "', system-ui, sans-serif; \x7d",
    "</style>"]

/-- The tag that opens a document. The width and the height are written as they are given. -/
def openTag {α : Type} (width height : String) (background : Color α) (transparent : Bool) :
    String :=
  "<svg" ++ Attribute.render
    ([("xmlns", "http://www.w3.org/2000/svg"), ("viewBox", "0 0 " ++ width ++ " " ++ height),
      ("width", width), ("height", height)] ++
      if transparent then [] else [("style", "background:" ++ background.toHex)]) ++ ">"

variable {α : Type} [Add α] [Sub α] [Mul α] [Div α] [LT α] [DecidableLT α] [∀ n, OfNat α n]
  [Coordinate α]

/-- The document of a canvas, all of whose groups must be closed. -/
def Canvas.document (canvas : Canvas α) (family : String) (width height : α)
    (background : Color α) (transparent : Bool) : Except (CanvasError α) String :=
  if canvas.depth = 0 then
    .ok (joinLines
      ([openTag (Coordinate.text width) (Coordinate.text height) background transparent,
        styleBlock family] ++ canvas.shapes.map Shape.render ++ ["</svg>"]))
  else .error (.stillPushed canvas.depth)

/-- The pen that the options ask for. -/
def Pen.ofOptions (options : Options α) : Pen α where
  family := (nonempty? options.font).getD "Inter"
  font := Font.standard
  jitter := options.jitter.getD 0

/-- The document of a diagram. It is at least one unit wide and high. The strokes sway with a fresh
    generator unless there is a seed. -/
def ofDiagram [LE α] [DecidableLE α] [BEq α] (fresh : Twister) (options : Options α)
    (diagram : Diagram) :
    Except (RenderError (CanvasError α)) String := do
  let pen := Pen.ofOptions options
  let drawing := diagram.render (Canvas.surface pen) pen.font.labelSize options
  let (result, canvas) := drawing.run.run (Canvas.empty (.seeded fresh options.seed))
  let layout ← result
  let palette ← (Palette.ofOptions options).mapError RenderError.palette
  (canvas.document pen.family (larger layout.width 1) (larger layout.height 1) palette.background
    (options.transparent.getD false)).mapError RenderError.surface

end SequenceChart.Svg
