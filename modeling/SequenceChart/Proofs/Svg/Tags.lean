import SequenceChart.Proofs.Svg.Groups
import SequenceChart.Proofs.Svg.Markup
import SequenceChart.Proofs.Svg.Values

namespace SequenceChart

open Xml

namespace Text

theorem all_isChar_escapeChar (c : Char) : (escapeChar c).all isChar = isChar c := by
  fun_cases escapeChar c
  case case6 => exact Bool.and_true _
  all_goals decide

/-- Escaping neither brings a character that is not allowed nor takes one away. -/
theorem allowed_escaped (text : String) : Allowed (escaped text) ↔ Allowed text := by
  rw [escaped, Allowed, String.toList_ofList, List.forall_mem_flatMap]
  refine forall₂_congr fun c _ => ?_
  rw [← List.all_eq_true, all_isChar_escapeChar]

theorem reference_escapeChar {name : List Char} {c : Char} (hname : (name, c) ∈ references) :
    Reference (String.ofList ('&' :: name)) := by
  simp only [references, List.mem_cons, Prod.mk.injEq, List.not_mem_nil, or_false] at hname
  obtain ⟨rfl, -⟩ | ⟨rfl, -⟩ | ⟨rfl, -⟩ | ⟨rfl, -⟩ | ⟨rfl, -⟩ := hname
  · exact @Reference.entity "amp" (by decide)
  · exact @Reference.entity "lt" (by decide)
  · exact @Reference.entity "gt" (by decide)
  · exact @Reference.entity "quot" (by decide)
  · exact @Reference.decimal '\'' (by decide)

theorem data_escaped (text : String) : Data (escaped text) := by
  rw [escaped]
  induction text.toList with
  | nil => exact .empty
  | cons c rest ih =>
    rw [List.flatMap_cons, String.ofList_append]
    obtain ⟨hplain, hc⟩ | ⟨name, hname, hreference⟩ := escapeChar_eq c
    · rw [hplain]
      refine .text (fun d hd => ?_) ih
      rw [String.toList_ofList, List.mem_singleton] at hd
      simp_all [isMarkup]
    · rw [hreference]
      exact .reference (reference_escapeChar hname) ih

end Text

namespace Svg

namespace Attribute

/-- Attributes with plain values, whose names are among given ones and in their order. -/
structure Keeps (names : List String) (attributes : List Attribute) : Prop where
  names : (attributes.map Prod.fst).Sublist names
  values : ∀ entry ∈ attributes, Plain entry.2

/-- Names that the attributes of one tag may have. -/
structure Fit (names : List String) : Prop where
  distinct : names.Nodup
  named : ∀ name ∈ names, isName name
  allowed : ∀ name ∈ names, Allowed name

theorem render_cons (name value : String) (attributes : List Attribute) :
    render ((name, value) :: attributes) = " " ++ name ++ "=\"" ++ value ++ "\"" ++ render attributes :=
  String.join_cons

namespace Keeps

variable {first second names : List String} {front back attributes : List Attribute}

theorem nil (names : List String) : Keeps names [] where
  names := List.nil_sublist names
  values := List.forall_mem_nil _

theorem cons (hkeeps : Keeps names attributes) (name : String) {value : String} (hvalue : Plain value) :
    Keeps (name :: names) ((name, value) :: attributes) where
  names := hkeeps.names.cons_cons name
  values := List.forall_mem_cons.2 ⟨hvalue, hkeeps.values⟩

theorem append (hfront : Keeps first front) (hback : Keeps second back) :
    Keeps (first ++ second) (front ++ back) where
  names := by
    rw [List.map_append]
    exact hfront.names.append hback.names
  values := List.forall_mem_append.2 ⟨hfront.values, hback.values⟩

theorem tail {entry : Attribute} (hkeeps : Keeps names (entry :: attributes)) : Keeps names attributes where
  names := (List.sublist_cons_self _ _).trans hkeeps.names
  values := (List.forall_mem_cons.1 hkeeps.values).2

/-- The first attribute has a fitting name, which no other one has, and a plain value. -/
theorem head {name value : String} (hkeeps : Keeps names ((name, value) :: attributes))
    (hfit : Fit names) : isName name ∧ Allowed name ∧ name ∉ attributes.map Prod.fst ∧ Plain value := by
  have hname := hkeeps.names.subset List.mem_cons_self
  exact ⟨hfit.named name hname, hfit.allowed name hname,
    (List.nodup_cons.1 (hkeeps.names.nodup hfit.distinct)).1, hkeeps.values _ List.mem_cons_self⟩

/-- Attributes that keep to fitting names are written as a tag may have them. -/
theorem render (hkeeps : Keeps names attributes) (hfit : Fit names) {gap : String}
    (hgap : gap.toList.all isSpace) :
    Attributes (attributes.map Prod.fst) (Attribute.render attributes ++ gap) := by
  induction attributes with
  | nil =>
    rw [Attribute.render, List.map_nil, List.map_nil, String.join_nil, String.empty_append]
    exact .none hgap
  | cons entry rest ih =>
    obtain ⟨name, value⟩ := entry
    obtain ⟨hname, -, hnew, hvalue⟩ := hkeeps.head hfit
    rw [render_cons, String.append_assoc]
    exact .cons (by decide) (by decide) hname hnew hvalue.data (ih hkeeps.tail)

theorem startTag (hkeeps : Keeps names attributes) (hfit : Fit names) :
    Attributes (attributes.map Prod.fst) (Attribute.render attributes) := by
  rw [← String.append_empty (s := Attribute.render attributes)]
  exact hkeeps.render hfit (by decide)

/-- What holds of marks, of the names and of plain characters holds of all that is written. -/
theorem forall_render {P : Char → Prop} (hkeeps : Keeps names attributes)
    (hmarks : ∀ c ∈ [' ', '=', '"'], P c) (hnames : ∀ name ∈ names, ∀ c ∈ name.toList, P c)
    (hplain : ∀ c, isPlain c → P c) : ∀ c ∈ (Attribute.render attributes).toList, P c := by
  induction attributes with
  | nil =>
    rw [Attribute.render, List.map_nil, String.join_nil]
    simp
  | cons entry rest ih =>
    obtain ⟨name, value⟩ := entry
    have hname := hkeeps.names.subset List.mem_cons_self
    have hvalue : Plain value := hkeeps.values _ List.mem_cons_self
    obtain ⟨hspace, hequals, hquote⟩ : P ' ' ∧ P '=' ∧ P '"' := by simpa using hmarks
    simp only [render_cons, String.toList_append, List.forall_mem_append]
    exact ⟨⟨⟨⟨⟨List.forall_mem_singleton.2 hspace, hnames name hname⟩,
      List.forall_mem_cons.2 ⟨hequals, List.forall_mem_singleton.2 hquote⟩⟩,
      fun c hc => hplain c (hvalue c hc)⟩, List.forall_mem_singleton.2 hquote⟩, ih hkeeps.tail⟩

theorem allowed_render (hkeeps : Keeps names attributes) (hfit : Fit names) :
    Allowed (Attribute.render attributes) := by
  have hmarks : [' ', '=', '"'].all isChar := by decide
  exact hkeeps.forall_render (List.all_eq_true.1 hmarks) hfit.allowed fun _ hc => (isPlain_iff.1 hc).1

/-- No tag begins in the attributes of another one. -/
theorem lt_notMem_render (hkeeps : Keeps names attributes) (hfit : Fit names) :
    '<' ∉ (Attribute.render attributes).toList := by
  have hnames : ∀ name ∈ names, ∀ c ∈ name.toList, c ≠ '<' := by
    rintro name hname _ hc rfl
    exact absurd (continuesName_of_isName (hfit.named name hname) hc) (by decide)
  have hplain (c : Char) (hc : isPlain c) : c ≠ '<' := by
    rintro rfl
    exact absurd hc (by decide)
  exact fun hmem => hkeeps.forall_render (by simp) hnames hplain '<' hmem rfl

end Keeps

instance : DecidablePred Fit := fun names =>
  decidable_of_iff (names.Nodup ∧ (∀ name ∈ names, isName name) ∧ ∀ name ∈ names, Allowed name)
    ⟨fun h => ⟨h.1, h.2.1, h.2.2⟩, fun h => ⟨h.distinct, h.named, h.allowed⟩⟩

section Numbers

variable {α : Type} [Coordinate α]

theorem keeps_box (hplain : ∀ x : α, Plain (Coordinate.text x)) (corner : Point α) (size : Size α) :
    Keeps ["x", "y", "width", "height"] (box corner size) :=
  ((((Keeps.nil []).cons _ (hplain size.height)).cons _ (hplain size.width)).cons _
    (hplain corner.y)).cons _ (hplain corner.x)

variable [LT α] [DecidableLT α] [∀ n, OfNat α n]

theorem keeps_opacity (hplain : ∀ x : α, Plain (Coordinate.text x)) (name : String) (color : Color α) :
    Keeps [name] (opacity name color) := by
  unfold opacity
  split
  · exact (Keeps.nil []).cons name (hplain _)
  · exact .nil _

theorem keeps_fill (hplain : ∀ x : α, Plain (Coordinate.text x)) (color : Color α) :
    Keeps ["fill", "fill-opacity"] (fill color) :=
  (keeps_opacity hplain _ color).cons _ color.plain_toHex

theorem keeps_stroke (hplain : ∀ x : α, Plain (Coordinate.text x)) (color : Color α) (width : α) :
    Keeps ["stroke", "stroke-width", "stroke-opacity"] (stroke color width) :=
  ((keeps_opacity hplain _ color).cons _ (hplain width)).cons _ color.plain_toHex

theorem keeps_dashes (dashed : Bool) : Keeps ["stroke-dasharray"] (dashes dashed) := by
  unfold dashes
  split
  · exact (Keeps.nil []).cons _ (by decide)
  · exact .nil _

end Numbers

end Attribute

namespace Shape

open Attribute

/-- The name of the element that a shape is written as. The ends of a group are written as one each. -/
def element {α : Type} : Shape α → String
  | outline .. | filled .. => "rect"
  | line .. => "line"
  | curve .. => "path"
  | triangle .. => "polygon"
  | text .. => "text"
  | openGroup .. | closeGroup => "g"

theorem isName_element {α : Type} (shape : Shape α) : isName shape.element ∧ Allowed shape.element := by
  have hnames : ∀ name ∈ ["rect", "line", "path", "polygon", "text", "g"],
      isName name ∧ Allowed name := by
    decide
  cases shape <;> exact hnames _ (by simp [element])

theorem emptyElement_sound {name : String} (hname : isName name ∧ Allowed name) {names : List String}
    (hfit : Fit names) {attributes : List Attribute} (hkeeps : Keeps names attributes) :
    Content (emptyElement name attributes) ∧ Allowed (emptyElement name attributes) := by
  have hmarks : Allowed "<" ∧ Allowed " />" := by decide
  constructor
  · have hgap : " ".toList.all isSpace := by decide
    have hwritten : emptyElement name attributes =
        "<" ++ name ++ (Attribute.render attributes ++ " ") ++ "/>" ++ "" := by
      simp only [emptyElement, String.append_assoc]
      rfl
    rw [hwritten]
    exact .childless hname.1 (hkeeps.render hfit hgap) .empty
  · simp only [emptyElement, allowed_append]
    exact ⟨⟨⟨hmarks.1, hname.2⟩, hkeeps.allowed_render hfit⟩, hmarks.2⟩

section Numbers

variable {α : Type} [Coordinate α]

theorem plain_pointText (hplain : ∀ x : α, Plain (Coordinate.text x)) (point : Point α) :
    Plain (pointText point) := by
  simp only [pointText, plain_append, hplain]
  decide

theorem plain_pathText (hplain : ∀ x : α, Plain (Coordinate.text x)) (stroke : Stroke α)
    (first second : Point α) : Plain (pathText stroke first second) := by
  simp only [pathText, plain_append, plain_pointText hplain]
  decide

theorem keeps_transform (hplain : ∀ x : α, Plain (Coordinate.text x)) (dx dy : α) :
    Keeps ["transform"] [("transform", "translate(" ++ Shape.pointText ⟨dx, dy⟩ ++ ")")] := by
  refine (Keeps.nil []).cons _ ?_
  simp only [plain_append, Shape.plain_pointText hplain]
  decide

end Numbers

variable {α : Type} [LT α] [DecidableLT α] [∀ n, OfNat α n] [Coordinate α]

/-- A shape that is no end of a group is an element with attributes that keep to fitting names: one
    without content, or the text of a line. -/
theorem render_element (hplain : ∀ x : α, Plain (Coordinate.text x)) {shape : Shape α}
    (hshape : shape.IsPlain) :
    ∃ names attributes, Fit names ∧ Keeps names attributes ∧
      (shape.content? = none ∧ shape.element ≠ "text" ∧
          shape.render = emptyElement shape.element attributes ∨
        shape.element = "text" ∧ ∃ line, shape.content? = some line ∧ shape.render =
          "<" ++ shape.element ++ Attribute.render attributes ++ ">" ++ Text.escaped line ++
            ("</" ++ shape.element ++ ">")) := by
  cases shape with
  | outline corner size color =>
    have hkeeps := (keeps_box hplain corner size).append
      ((keeps_stroke hplain color 1).cons "fill" (show Plain "none" by decide))
    exact ⟨_, _, by decide, hkeeps, .inl ⟨rfl, by simp [element], rfl⟩⟩
  | filled corner size color =>
    have hkeeps := (keeps_box hplain corner size).append (keeps_fill hplain color)
    exact ⟨_, _, by decide, hkeeps, .inl ⟨rfl, by simp [element], rfl⟩⟩
  | line stroke =>
    have hends := ((((Keeps.nil []).cons "y2" (hplain stroke.stop.y)).cons "x2"
      (hplain stroke.stop.x)).cons "y1" (hplain stroke.start.y)).cons "x1" (hplain stroke.start.x)
    have hkeeps := (hends.append (keeps_stroke hplain stroke.color stroke.width)).append
      (keeps_dashes stroke.dashed)
    exact ⟨_, _, by decide, hkeeps, .inl ⟨rfl, by simp [element], rfl⟩⟩
  | curve stroke first second =>
    have hpath := ((Keeps.nil []).cons "fill" (show Plain "none" by decide)).cons "d"
      (plain_pathText hplain stroke first second)
    have hkeeps := (hpath.append (keeps_stroke hplain stroke.color stroke.width)).append
      (keeps_dashes stroke.dashed)
    exact ⟨_, _, by decide, hkeeps, .inl ⟨rfl, by simp [element], rfl⟩⟩
  | triangle tip left right color =>
    have hpoints : Plain (pointText tip ++ " " ++ pointText left ++ " " ++ pointText right) := by
      simp only [plain_append, plain_pointText hplain]
      decide
    have hkeeps := (keeps_fill hplain color).cons "points" hpoints
    exact ⟨_, _, by decide, hkeeps, .inl ⟨rfl, by simp [element], rfl⟩⟩
  | text content point anchor font color =>
    have hanchor : Plain anchor.name := by cases anchor <;> decide
    have hlook := (((Keeps.nil []).cons "font-weight" (plain_toString_int font.weight)).cons "font-size"
      (hplain font.size)).cons "dy" (show Plain "0.35em" by decide)
    have hkeeps := (((hlook.cons "text-anchor" hanchor).cons "y" (hplain point.y)).cons "x"
      (hplain point.x)).append (keeps_fill hplain color)
    exact ⟨_, _, by decide, hkeeps, .inr ⟨rfl, content, rfl, rfl⟩⟩
  | openGroup | closeGroup => cases hshape

/-- A shape that is no end of a group is an element. Its characters are allowed if those of its line
    are. -/
theorem render_sound (hplain : ∀ x : α, Plain (Coordinate.text x)) {shape : Shape α}
    (hshape : shape.IsPlain) :
    Content shape.render ∧ (Allowed shape.render ↔ ∀ line ∈ shape.content?, Allowed line) := by
  have hname := shape.isName_element
  obtain ⟨names, attributes, hfit, hkeeps, hwritten⟩ := render_element hplain hshape
  obtain ⟨hcontent, -, hrender⟩ | ⟨-, line, hcontent, hrender⟩ := hwritten
  · obtain ⟨helement, hallowed⟩ := emptyElement_sound hname hfit hkeeps
    rw [hrender, hcontent]
    exact ⟨helement, iff_of_true hallowed (by simp)⟩
  · rw [hrender, hcontent]
    constructor
    · have helement := Content.element hname.1 (hkeeps.startTag hfit)
        (.of_data (Text.data_escaped line)) .empty
      simpa only [String.append_assoc, String.append_empty] using helement
    · have hmarks : Allowed "<" ∧ Allowed ">" ∧ Allowed "</" := by decide
      simp only [allowed_append, hmarks, hname.2, hkeeps.allowed_render hfit, Text.allowed_escaped,
        true_and, and_true]
      simp

end Shape

theorem keeps_openTag {α : Type} [Coordinate α] (hplain : ∀ x : α, Plain (Coordinate.text x))
    (width height : α) (background : Color α) (transparent : Bool) :
    Attribute.Keeps ["xmlns", "viewBox", "width", "height", "style"]
      ([("xmlns", "http://www.w3.org/2000/svg"),
        ("viewBox", "0 0 " ++ Coordinate.text width ++ " " ++ Coordinate.text height),
        ("width", Coordinate.text width), ("height", Coordinate.text height)] ++
        if transparent then [] else [("style", "background:" ++ background.toHex)]) := by
  have hstyle : Attribute.Keeps ["style"]
      (if transparent then [] else [("style", "background:" ++ background.toHex)]) := by
    split
    · exact .nil _
    · refine (Attribute.Keeps.nil []).cons _ (plain_append.2 ⟨?_, background.plain_toHex⟩)
      decide
  have hview : Plain ("0 0 " ++ Coordinate.text width ++ " " ++ Coordinate.text height) := by
    simp only [plain_append, hplain]
    decide
  exact ((((hstyle.cons "height" (hplain height)).cons "width" (hplain width)).cons "viewBox" hview).cons
    "xmlns" (show Plain "http://www.w3.org/2000/svg" by decide))

end Svg

end SequenceChart
