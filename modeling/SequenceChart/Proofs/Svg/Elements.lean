import SequenceChart.Proofs.Svg.StyleBlock
import SequenceChart.Proofs.Svg.Tags

namespace SequenceChart.Svg

open Attribute

/-- The tag of an element with attributes, and those behind it. -/
theorem tags_render_attributes {name : String} (hname : Xml.isName name) {names : List String}
    {attributes : List Attribute} (hkeeps : Keeps names attributes) (hfit : Fit names) {rest : String}
    (hrest : Xml.Apart rest.toList) :
    Xml.tags ("<" ++ name ++ (Attribute.render attributes ++ rest)) = .opening name :: Xml.tags rest := by
  have happart : Xml.Apart (Attribute.render attributes ++ rest).toList := by
    cases attributes with
    | nil =>
      rw [Attribute.render, List.map_nil, String.join_nil, String.empty_append]
      exact hrest
    | cons entry others =>
      rw [render_cons]
      simp only [String.append_assoc]
      exact Xml.apart_append (by decide) _
  rw [Xml.tags_startTag hname happart, Xml.tags_append_of_notMem (hkeeps.lt_notMem_render hfit)]

/-- Markup that is nothing but a tag with attributes. -/
theorem tags_render_mark {name : String} (hname : Xml.isName name) {names : List String}
    {attributes : List Attribute} (hkeeps : Keeps names attributes) (hfit : Fit names) {mark : String}
    (hmark : mark ∈ [" />", ">"]) :
    Xml.tags ("<" ++ name ++ (Attribute.render attributes ++ mark)) = [.opening name] := by
  simp only [List.mem_cons, List.not_mem_nil, or_false] at hmark
  obtain rfl | rfl := hmark
  · have happart : Xml.Apart " />".toList := Xml.apart_append (show " " ∈ _ by decide) "/>"
    have hnone : Xml.tags " />" = [] := by decide
    rw [tags_render_attributes hname hkeeps hfit happart, hnone]
  · have happart : Xml.Apart ">".toList := Xml.apart_append (show ">" ∈ _ by decide) ""
    have hnone : Xml.tags ">" = [] := by decide
    rw [tags_render_attributes hname hkeeps hfit happart, hnone]

namespace Shape

section Names

variable {α : Type}

/-- The tags that a shape is written with. -/
def tags : Shape α → List Xml.Tag
  | text .. => [.opening "text", .closing "text"]
  | openGroup .. => [.opening "g"]
  | closeGroup => [.closing "g"]
  | shape => [.opening shape.element]

theorem tags_of_plain {shape : Shape α} (hshape : shape.IsPlain) :
    ∀ tag ∈ shape.tags, tag.name ≠ "g" := by
  cases shape with
  | openGroup | closeGroup => cases hshape
  | _ => simp [tags, element]

/-- The tags of nested groups are nested. -/
theorem nested_tags {shapes : List (Shape α)} (hnested : Nested shapes) :
    Xml.Nested "g" (shapes.flatMap tags) := by
  induction hnested with
  | nil => exact .nil
  | plain hplain _ ih => exact (Xml.Nested.of_others (tags_of_plain hplain)).append ih
  | @group inner rest dx dy _ _ ihInner ihRest =>
    have htags : (openGroup dx dy :: inner ++ closeGroup :: rest).flatMap tags =
        .opening "g" :: inner.flatMap tags ++ .closing "g" :: rest.flatMap tags := by
      simp [tags]
    rw [htags]
    exact .element ihInner ihRest

/-- The tags of texts are those of the lines that are shown. -/
theorem textTags_tags (shapes : List (Shape α)) :
    (shapes.flatMap tags).filter (fun tag => tag.name = "text") =
      (shapes.filterMap content?).flatMap fun _ => [.opening "text", .closing "text"] := by
  have hshape (shape : Shape α) : shape.tags.filter (fun tag => tag.name = "text") =
      shape.content?.toList.flatMap fun _ => [.opening "text", .closing "text"] := by
    cases shape <;> simp [tags, element, content?]
  induction shapes with
  | nil => rfl
  | cons shape rest ih =>
    have hcontents : (shape :: rest).filterMap content? =
        shape.content?.toList ++ rest.filterMap content? := by
      cases hcontent : shape.content? <;> simp [hcontent]
    rw [List.flatMap_cons, List.filter_append, hshape, ih, hcontents, List.flatMap_append]

end Names

variable {α : Type} [LT α] [DecidableLT α] [∀ n, OfNat α n] [Coordinate α]

/-- The markup of a shape has the tags of its element and no other, whatever its line is. -/
theorem tags_render (hplain : ∀ x : α, Xml.Plain (Coordinate.text x)) (shape : Shape α) :
    Xml.tags shape.render = shape.tags := by
  by_cases hshape : shape.IsPlain
  · obtain ⟨names, attributes, hfit, hkeeps, hwritten⟩ := render_element hplain hshape
    have hname := shape.isName_element.1
    obtain ⟨-, hother, hrender⟩ | ⟨htext, line, -, hrender⟩ := hwritten
    · have htags : shape.tags = [.opening shape.element] := by
        cases shape with
        | openGroup | closeGroup => cases hshape
        | text => exact absurd rfl hother
        | _ => rfl
      rw [hrender, emptyElement, String.append_assoc, tags_render_mark hname hkeeps hfit (by decide),
        htags]
    · have htags : shape.tags = [.opening "text", .closing "text"] := by
        cases shape with
        | text => rfl
        | _ => simp [element] at htext
      have hmark : '<' ∉ ">".toList := by decide
      have hline : '<' ∉ (Text.escaped line).toList :=
        fun hmem => (Text.escaped_encodes line).plain '<' hmem (by simp)
      have hend : Xml.tags ("</" ++ "text" ++ ">") = [.closing "text"] := by decide
      have hwhole : shape.render = "<" ++ shape.element ++ (Attribute.render attributes ++
          (">" ++ (Text.escaped line ++ ("</" ++ "text" ++ ">")))) := by
        rw [hrender, htext]
        simp only [String.append_assoc]
      rw [hwhole, tags_render_attributes hname hkeeps hfit (Xml.apart_append (by decide) _),
        Xml.tags_append_of_notMem hmark, Xml.tags_append_of_notMem hline, hend, htext, htags]
  · cases shape with
    | openGroup dx dy =>
      have hname : Xml.isName "g" := by decide
      have hrender : (openGroup dx dy).render = "<" ++ "g" ++
          (Attribute.render [("transform", "translate(" ++ pointText ⟨dx, dy⟩ ++ ")")] ++ ">") :=
        String.append_assoc
      rw [hrender, tags_render_mark hname (keeps_transform hplain dx dy) (by decide) (by decide)]
      rfl
    | closeGroup =>
      have hend : Xml.tags "</g>" = [.closing "g"] := by decide
      exact hend
    | _ => exact absurd trivial hshape

end Shape

theorem tags_openTag {α : Type} [Coordinate α] (hplain : ∀ x : α, Xml.Plain (Coordinate.text x))
    (width height : α) (background : Color α) (transparent : Bool) :
    Xml.tags (openTag (Coordinate.text width) (Coordinate.text height) background transparent) =
      [.opening "svg"] := by
  have hname : Xml.isName "svg" := by decide
  have hopen : openTag (Coordinate.text width) (Coordinate.text height) background transparent =
      "<" ++ "svg" ++ (Attribute.render _ ++ ">") :=
    String.append_assoc
  rw [hopen, tags_render_mark hname (keeps_openTag hplain width height background transparent)
    (by decide) (by decide)]

namespace Canvas

variable {α : Type} [LT α] [DecidableLT α] [∀ n, OfNat α n] [Coordinate α]

/-- The elements of the document of a canvas. -/
def elements (canvas : Canvas α) (family : String) (width height : α) (background : Color α)
    (transparent : Bool) : List String :=
  openTag (Coordinate.text width) (Coordinate.text height) background transparent ::
    styleBlock family :: (canvas.shapes.map Shape.render ++ ["</svg>"])

theorem written_pieces (canvas : Canvas α) (family : String) (width height : α)
    (background : Color α) (transparent : Bool) :
    (canvas.pieces family width height background transparent).map Piece.written =
      canvas.elements family width height background transparent := by
  have hshapes : (canvas.shapes.map Shape.piece).map Piece.written = canvas.shapes.map Shape.render := by
    rw [List.map_map]
    exact List.map_congr_left fun shape _ => shape.written_piece
  rw [pieces, List.map_cons, List.map_cons, List.map_append, hshapes]
  rfl

theorem filterMap_pieces {β : Type} {f : Piece → Option β} (hmarkup : ∀ line, f (.markup line) = none)
    (canvas : Canvas α) (family : String) (width height : α) (background : Color α)
    (transparent : Bool) :
    (canvas.pieces family width height background transparent).filterMap f =
      (f (.style family)).toList ++ (canvas.shapes.map Shape.piece).filterMap f := by
  simp [pieces, List.filterMap_eq_flatMap_toList, hmarkup]

/-- The family is in the document as it is. -/
theorem family_infix_elements (canvas : Canvas α) (family : String) (width height : α)
    (background : Color α) (transparent : Bool) :
    family.toList <:+:
      (joinLines (canvas.elements family width height background transparent)).toList := by
  refine ⟨(openTag (Coordinate.text width) (Coordinate.text height) background transparent ++
      ("\n" ++ ("<style>" ++ sheetFront family))).toList,
    ("'" ++ (sheetBack ++ ("</style>" ++
      String.join ((canvas.shapes.map Shape.render ++ ["</svg>"]).map ("\n" ++ ·))))).toList, ?_⟩
  rw [elements, joinLines_cons, List.map_cons, String.join_cons, styleBlock_eq]
  simp only [String.toList_append, List.append_assoc]

variable (hplain : ∀ x : α, Xml.Plain (Coordinate.text x)) (canvas : Canvas α) (family : String)
  (width height : α) (background : Color α) (transparent : Bool)

include hplain

/-- The tags of a document are those of its root, of its style block with all that are in the family,
    and of its shapes. -/
theorem tags_elements :
    Xml.tags (joinLines (canvas.elements family width height background transparent)) =
      .opening "svg" :: .opening "style" :: (Xml.tags family ++
        .closing "style" :: (canvas.shapes.flatMap Shape.tags ++ [.closing "svg"])) := by
  have hend : Xml.tags "</svg>" = [.closing "svg"] := by decide
  have hshapes : (canvas.shapes.map Shape.render).flatMap Xml.tags = canvas.shapes.flatMap Shape.tags := by
    rw [List.flatMap_map]
    exact congrArg (canvas.shapes.flatMap ·) (funext fun shape => shape.tags_render hplain)
  rw [tags_joinLines, elements, List.flatMap_cons, List.flatMap_cons, List.flatMap_append, hshapes,
    tags_openTag hplain, tags_styleBlock, List.flatMap_singleton, hend]
  simp

/-- Of the texts in a document all are lines that are shown but those that are in the family. -/
theorem textTags_elements :
    textTags (joinLines (canvas.elements family width height background transparent)) =
      textTags family ++ (canvas.shapes.filterMap Shape.content?).flatMap fun _ =>
        [.opening "text", .closing "text"] := by
  rw [textTags, tags_elements hplain, ← Shape.textTags_tags]
  simp [textTags]

/-- A document consists of its pieces, whose texts are the lines that are shown. -/
theorem consists_elements :
    Consists (joinLines (canvas.elements family width height background transparent)) family
      (canvas.pieces family width height background transparent)
      (canvas.shapes.filterMap Shape.content?) where
  written := by rw [written_pieces]
  tags := textTags_elements hplain canvas family width height background transparent
  style := by
    have hshape (shape : Shape α) : shape.piece.family? = none := by cases shape <;> rfl
    have hshapes : (canvas.shapes.map Shape.piece).filterMap Piece.family? = [] := by
      simp [hshape]
    rw [filterMap_pieces fun _ => rfl, hshapes]
    rfl
  contents := by
    rw [filterMap_pieces fun _ => rfl]
    exact Shape.contents_pieces canvas.shapes
  markup := by
    have hend : textTags "</svg>" = [] := by decide
    have hshape (shape : Shape α) (line : String) (hmarkup : shape.piece = .markup line) :
        textTags line = [] := by
      have hwritten := shape.written_piece
      rw [hmarkup] at hwritten
      obtain rfl : line = shape.render := hwritten
      rw [textTags, shape.tags_render hplain]
      cases shape with
      | text => cases hmarkup
      | _ => simp [Shape.tags, Shape.element]
    intro line hline
    simp only [pieces, List.mem_cons, List.mem_append, List.mem_map, List.not_mem_nil, or_false,
      reduceCtorEq, false_or, Piece.markup.injEq] at hline
    obtain rfl | ⟨shape, -, hmarkup⟩ | rfl := hline
    · rw [textTags, tags_openTag hplain]
      decide
    · exact hshape shape line hmarkup
    · exact hend
  texts := by
    intro attributes content htext
    simp only [pieces, List.mem_cons, List.mem_append, List.mem_map, List.not_mem_nil, or_false,
      reduceCtorEq, false_or] at htext
    obtain ⟨shape, -, hpiece⟩ := htext
    rw [← hpiece, shape.written_piece, shape.tags_render hplain]
    cases shape with
    | text => rfl
    | _ => cases hpiece

end Canvas

end SequenceChart.Svg
