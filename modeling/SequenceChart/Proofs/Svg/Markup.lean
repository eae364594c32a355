import Mathlib.Data.List.Forall2
import SequenceChart.Proofs.Drawing.Texts
import SequenceChart.Proofs.Svg.Painted
import SequenceChart.Proofs.Svg.Strokes
import SequenceChart.Proofs.Text.Escaped
import SequenceChart.Proofs.Xml.Tags
import SequenceChart.Svg.Document

namespace SequenceChart.Svg

/-- A part of a document: markup without character content of its own, the style block of a family,
    or the element of a text. -/
inductive Piece where
  | markup (line : String)
  | style (family : String)
  | text (attributes : List Attribute) (content : String)
  deriving DecidableEq

namespace Piece

/-- How a piece is written. -/
def written : Piece → String
  | markup line => line
  | style family => styleBlock family
  | text attributes content => "<text" ++ Attribute.render attributes ++ ">" ++ content ++ "</text>"

/-- The character content of a text. -/
def content? : Piece → Option String
  | text _ content => some content
  | _ => none

/-- The family of a style block. -/
def family? : Piece → Option String
  | style family => some family
  | _ => none

/-- A piece without its character content. -/
def hollow : Piece → Piece
  | text attributes _ => text attributes ""
  | piece => piece

end Piece

/-- The tags of texts in markup, in order. -/
def textTags (text : String) : List Xml.Tag :=
  (Xml.tags text).filter fun tag => tag.name = "text"

/-- A document that consists of pieces, one of them a style block, of which the texts stand for lines,
    in order. No other markup has tags of texts, and a text no other tags than its own. Only in the
    family of the style block, which is written as it is, there can be others. -/
structure Consists (document family : String) (pieces : List Piece) (lines : List String) : Prop where
  written : document = joinLines (pieces.map Piece.written)
  tags : textTags document =
    textTags family ++ lines.flatMap fun _ => [.opening "text", .closing "text"]
  style : pieces.filterMap Piece.family? = [family]
  contents : List.Forall₂ Text.Encodes (pieces.filterMap Piece.content?) lines
  markup : ∀ line, .markup line ∈ pieces → textTags line = []
  texts : ∀ attributes content, .text attributes content ∈ pieces →
    Xml.tags (Piece.text attributes content).written = [.opening "text", .closing "text"]

namespace Shape

section Content

variable {α : Type}

/-- The line that a shape shows. -/
def content? : Shape α → Option String
  | text content .. => some content
  | _ => none

variable [LT α] [DecidableLT α] [∀ n, OfNat α n] [Coordinate α]

/-- The piece of a document that a shape is written as. -/
def piece : Shape α → Piece
  | text content point anchor font color =>
    .text ([Attribute.number "x" point.x, Attribute.number "y" point.y, ("text-anchor", anchor.name),
      ("dy", "0.35em"), Attribute.number "font-size" font.size,
      ("font-weight", toString font.weight)] ++ Attribute.fill color) (Text.escaped content)
  | shape => .markup shape.render

theorem written_piece (shape : Shape α) : shape.piece.written = shape.render := by
  cases shape <;> rfl

theorem content?_piece (shape : Shape α) : shape.piece.content? = shape.content?.map Text.escaped := by
  cases shape <;> rfl

theorem contents_pieces (shapes : List (Shape α)) :
    List.Forall₂ Text.Encodes ((shapes.map piece).filterMap Piece.content?)
      (shapes.filterMap content?) := by
  have hcontents : (shapes.map piece).filterMap Piece.content? =
      (shapes.filterMap content?).map Text.escaped := by
    simp only [List.filterMap_map, Function.comp_def, content?_piece, List.map_filterMap]
  rw [hcontents, List.forall₂_map_left_iff]
  exact List.forall₂_same.2 fun line _ => Text.escaped_encodes line

end Content

end Shape

namespace Canvas

variable {α : Type} [Add α] [Mul α] [Div α] [∀ n, OfNat α n]

theorem contents_lineShapes (font : Font α) (color : Color α) (anchor : Anchor) (x top : α) (i : Nat)
    (lines : List String) :
    (lineShapes font color anchor x top i lines).filterMap Shape.content? = lines := by
  induction lines generalizing i with
  | nil => rfl
  | cons line rest ih =>
    exact congrArg (line :: ·) (ih (i + 1))

variable [Sub α] [LT α] [DecidableLT α]

theorem contents_strokeShape (jitter : α) (stroke : Stroke α) (random : Twister) :
    (strokeShape jitter stroke random).1.content? = none :=
  strokeShape_keeps (P := fun shape => shape.content? = none) (fun _ => rfl) (fun _ _ _ => rfl) ..

theorem contents_strokeShapes (jitter : α) (strokes : List (Stroke α)) (random : Twister) :
    (strokeShapes jitter strokes random).1.filterMap Shape.content? = [] :=
  List.filterMap_eq_nil_iff.2
    (strokeShapes_keep (fun _ => rfl) (fun _ _ _ => rfl) jitter strokes random)

variable [LE α] [DecidableLE α] [BEq α] [Coordinate α]

/-- The shapes that a call adds show the lines of its text. -/
theorem contents_shapesOf (pen : Pen α) {call : Call α} {depth : Nat}
    (haccepted : refusal? depth call = none) (random : Twister) :
    (shapesOf pen call random).1.filterMap Shape.content? =
      call.shown?.toList.flatMap Label.lines := by
  cases call with
  | rectangle corner size color =>
    by_cases hjitter : 0 < pen.jitter
    · simp only [shapesOf, outlineShapes, if_pos hjitter]
      exact contents_strokeShapes ..
    · simp only [shapesOf, outlineShapes, if_neg hjitter]
      rfl
  | line dashed start stop width color => exact contents_strokeShapes ..
  | arrow dashed start stop width color headLength headWidth =>
    simp only [shapesOf, arrowShapes]
    split
    · rfl
    · exact (List.filterMap_cons_none (contents_strokeShape ..)).trans rfl
  | text label horizontal vertical corner size color =>
    cases hanchor : anchorOf (α := α) horizontal with
    | error error => simp [refusal?, hanchor] at haccepted
    | ok anchor =>
      simp only [shapesOf, textShapes, hanchor]
      exact (contents_lineShapes ..).trans (List.append_nil _).symm
  | fill | measure | push | pop => rfl

/-- What a canvas shows after it has answered calls is what it showed before, and the lines of the
    texts of the calls. -/
theorem contents_of_answers {pen : Pen α} {calls : List (Call α)} {start after : Canvas α}
    (hanswers : (surface pen).Answers start calls after) :
    after.shapes.filterMap Shape.content? =
      start.shapes.filterMap Shape.content? ++ (calls.filterMap Call.shown?).flatMap Label.lines := by
  induction calls generalizing start with
  | nil =>
    obtain rfl : start = after := hanswers
    exact (List.append_nil _).symm
  | cons call rest ih =>
    obtain ⟨middle, hcall, hrest⟩ := hanswers
    rw [surface_run] at hcall
    cases haccepted : refusal? start.depth call with
    | some error =>
      simp only [haccepted] at hcall
      cases hcall
    | none =>
      simp only [haccepted] at hcall
      cases hcall
      have hshown : (call :: rest).filterMap Call.shown? =
          call.shown?.toList ++ rest.filterMap Call.shown? := by
        cases hcase : call.shown? <;> simp [hcase]
      rw [ih hrest, painted, List.filterMap_append, contents_shapesOf pen haccepted, hshown,
        List.flatMap_append, List.append_assoc]

/-- The pieces of the document of a canvas. -/
def pieces (canvas : Canvas α) (family : String) (width height : α) (background : Color α)
    (transparent : Bool) : List Piece :=
  .markup (openTag (Coordinate.text width) (Coordinate.text height) background transparent) ::
    .style family :: (canvas.shapes.map Shape.piece ++ [.markup "</svg>"])

end Canvas

end SequenceChart.Svg
