import SequenceChart.Proofs.Css.Strings
import SequenceChart.Proofs.Svg.WellFormed

namespace SequenceChart.Svg

open Xml Attribute Text

/-- An element for styles in which nothing could be a tag. -/
def OneStyle (text : String) : Prop :=
  ∃ sheet : String, text = "<style>" ++ sheet ++ "</style>" ∧ '<' ∉ sheet.toList

/-- A text in which no tag for styles begins. -/
def Unstyled (text : String) : Prop :=
  Marked '<' (fun rest => ∀ name ∈ ["style", "/style"], ¬ name.toList <+: rest) text

/-- No tag for styles begins where no tag has a name that begins so. -/
theorem unstyled_of_tags {text : String}
    (htags : ∀ tag ∈ Xml.tags text, ¬ "style".toList <+: tag.name.toList) : Unstyled text := by
  have hname : isName "style" := by decide
  intro front back hsplit name hmem
  have htag : tagAt back ∈ Xml.tags text := by
    rw [Xml.tags, hsplit]
    exact tagAt_mem_tagsOf
  simp only [List.mem_cons, List.not_mem_nil, or_false] at hmem
  rintro ⟨rest, rfl⟩
  obtain rfl | rfl := hmem
  · exact htags _ htag (prefix_takeWhile_name hname rest)
  · exact htags _ htag (prefix_takeWhile_name hname rest)

section Block

/-- How a family stands in its style block: in an address, where no character of it can do any harm,
    and as it is in a string. There it opens or closes a tag, begins what is no reference, or leaves the
    string exactly if it is written so. -/
structure Embedded (family : String) : Prop where
  block : styleBlock family =
    "<style>" ++ (sheetFront family ++ family ++ "'" ++ sheetBack) ++ "</style>"
  address : ∀ c ∈ (percentEncoded family).toList, isUnreserved c.toNat ∨ c = '%'
  tags : OneStyle (styleBlock family) ↔ '<' ∉ family.toList
  references : Referring (styleBlock family) ↔ Referring family
  string : Css.afterString .plain (family ++ "'" ++ sheetBack).toList = some sheetBack.toList ↔
    Css.Quotable family
  unescaped : '\\' ∉ family.toList →
    (Css.Quotable family ↔ ∀ c ∈ family.toList, c ≠ '\'' ∧ ¬ Css.isBreak c)

variable (family : String)

theorem oneStyle_iff : OneStyle (styleBlock family) ↔ '<' ∉ family.toList := by
  have hfront := lt_notMem_sheetFront family
  rw [styleBlock_eq]
  constructor
  · rintro ⟨sheet, hsheet, hnone⟩ hfamily
    rw [String.append_left_inj, String.append_right_inj] at hsheet
    exact hnone (hsheet ▸ by simp [hfamily])
  · intro hfamily
    exact ⟨_, rfl, by simp [hfront, hfamily, lt_notMem_sheetBack]⟩

theorem referring_styleBlock_iff : Referring (styleBlock family) ↔ Referring family := by
  have hplain {text : String} (htext : '&' ∉ text.toList) : Referring text := marked_of_notMem htext
  have hweights : Referring ":wght@400;500;600;700&amp;display=swap');" := by
    have hfront : Referring ":wght@400;500;600;700" := hplain (by simp)
    have hrefers : RefersFirst "amp;display=swap');".toList :=
      ⟨['a', 'm', 'p'], _, .inl (by decide), rfl⟩
    have htext : "&amp;display=swap');".toList = '&' :: "amp;display=swap');".toList := rfl
    exact hfront.append (marked_cons htext (by simp) hrefers)
  have himport : Referring ("  @import url('https://fonts.googleapis.com/css2?family=" ++
      percentEncoded family ++ ":wght@400;500;600;700&amp;display=swap');") :=
    ((hplain (by simp)).append (hplain (notMem_percentEncoded family (by simp)))).append hweights
  have hfront : Referring ("<style>" ++ sheetFront family) := by
    simp only [sheetFront, joinLines_cons, List.map_cons, List.map_nil, String.join_cons,
      String.join_nil]
    exact (hplain (by simp)).append ((hplain (by simp)).append
      (((hplain (by simp)).append himport).append (hplain (by simp))))
  have hback : Referring (sheetBack ++ "</style>") := hplain (by simp [sheetBack, joinLines_cons])
  have hblock : styleBlock family =
      "<style>" ++ sheetFront family ++ family ++ "'" ++ (sheetBack ++ "</style>") := by
    rw [styleBlock_eq]
    simp only [String.append_assoc]
  rw [hblock]
  exact referring_quoted_iff hfront hback

theorem embedded : Embedded family where
  block := styleBlock_eq family
  address := address_percentEncoded family
  tags := oneStyle_iff family
  references := referring_styleBlock_iff family
  string := by
    have htext : (family ++ "'" ++ sheetBack).toList = family.toList ++ '\'' :: sheetBack.toList := by
      simp
    rw [htext]
    exact Css.afterString_append_iff
  unescaped := Css.quotable_iff

end Block

variable {α : Type} [LT α] [DecidableLT α] [∀ n, OfNat α n] [Coordinate α]

/-- The style block of a document whose canvas has been drawn, and what stands around it. -/
theorem Canvas.elements_styled (hplain : ∀ x : α, Plain (Coordinate.text x)) (canvas : Canvas α)
    (width height : α) (background : Color α) (transparent : Bool) :
    ∃ front back, Unstyled front ∧ Unstyled back ∧ ∀ family,
      joinLines (canvas.elements family width height background transparent) =
        front ++ styleBlock family ++ back := by
  have hfront : Unstyled (openTag (Coordinate.text width) (Coordinate.text height) background
      transparent ++ "\n") := by
    refine unstyled_of_tags ?_
    have hbreak : Xml.tags "\n" = [] := by decide
    have happart : Apart "\n".toList := apart_append (show "\n" ∈ _ by decide) ""
    rw [tags_append happart, tags_openTag hplain, hbreak]
    decide
  have hback : Unstyled (String.join ((canvas.shapes.map Shape.render ++ ["</svg>"]).map ("\n" ++ ·))) := by
    refine unstyled_of_tags ?_
    have hend : Xml.tags "</svg>" = [.closing "svg"] := by decide
    have hshape : ∀ shape ∈ canvas.shapes, ∀ tag ∈ Xml.tags shape.render,
        ¬ "style".toList <+: tag.name.toList := by
      intro shape _
      rw [shape.tags_render hplain]
      cases shape <;> simp [Shape.tags, Shape.element]
    rw [tags_join, List.flatMap_append, List.flatMap_singleton, hend, List.forall_mem_append,
      List.flatMap_map, List.forall_mem_flatMap]
    exact ⟨hshape, by decide⟩
  refine ⟨_, _, hfront, hback, fun family => ?_⟩
  rw [elements, joinLines_cons, List.map_cons, String.join_cons]
  simp only [String.append_assoc]

variable [Add α] [Sub α] [Mul α] [Div α] [LE α] [DecidableLE α] [BEq α]

theorem drawn_font (random : Twister) (options : Options α) (font : Option String) (palette : Palette α)
    (layout : Layout α) :
    drawn random { options with font } palette layout = drawn random options palette layout := by
  have hsurface : Canvas.surface (Pen.ofOptions { options with font }) =
      Canvas.surface (Pen.ofOptions options) := by
    funext call
    cases call <;> rfl
  rw [drawn, hsurface]
  rfl

/-- The font of a drawing changes nothing but its style block. -/
theorem written_styled (hplain : ∀ x : α, Plain (Coordinate.text x)) (random : Twister)
    (options : Options α) (palette : Palette α) (layout : Layout α) :
    (∃ error, ∀ font, written random { options with font } palette layout = .error error) ∨
      ∃ front back, Unstyled front ∧ Unstyled back ∧ ∀ font,
        written random { options with font } palette layout =
          .ok (front ++ styleBlock (Pen.ofOptions { options with font }).family ++ back) := by
  simp only [written, drawn_font]
  obtain ⟨error | _, canvas⟩ := drawn random options palette layout
  · exact .inl ⟨error, fun _ => rfl⟩
  · by_cases hclosed : canvas.depth = 0
    · obtain ⟨front, back, hfront, hback, hstyled⟩ := canvas.elements_styled hplain
        (larger layout.width 1) (larger layout.height 1) palette.background
        (options.transparent.getD false)
      refine .inr ⟨front, back, hfront, hback, fun font => ?_⟩
      rw [← hstyled]
      exact if_pos hclosed
    · exact .inl ⟨_, fun _ => if_neg hclosed⟩

/-- The font shows in nothing but the style block, and no other tag for styles is there. The block has
    its two tags and no other, references at all ampersands, and the family in its string, if and only
    if the family does not contain what would break them. -/
theorem ofDiagram_styled (hplain : ∀ x : α, Plain (Coordinate.text x)) (fresh : Twister)
    (options : Options α) (diagram : Diagram) :
    (∀ family, Embedded family) ∧
      ((∃ error, ∀ font, ofDiagram fresh { options with font } diagram = .error error) ∨
        ∃ front back, Unstyled front ∧ Unstyled back ∧ ∀ font,
          ofDiagram fresh { options with font } diagram =
            .ok (front ++ styleBlock (Pen.ofOptions { options with font }).family ++ back)) := by
  refine ⟨embedded, ?_⟩
  have hlayout (font : Option String) :
      Layout.ofDiagram (Pen.ofOptions { options with font }).font.labelSize
        (Spacing.ofOptions { options with font }) diagram =
      Layout.ofDiagram (Pen.ofOptions options).font.labelSize (Spacing.ofOptions options) diagram := rfl
  have hpalette (font : Option String) :
      Palette.ofOptions { options with font } = Palette.ofOptions options := rfl
  simp only [ofDiagram_eq, hlayout, hpalette]
  cases Layout.ofDiagram (Pen.ofOptions options).font.labelSize (Spacing.ofOptions options) diagram with
  | error error => exact .inl ⟨_, fun _ => rfl⟩
  | ok layout =>
    cases Palette.ofOptions options with
    | error error => exact .inl ⟨_, fun _ => rfl⟩
    | ok palette =>
      obtain ⟨error, herror⟩ | ⟨front, back, hfront, hback, hstyled⟩ :=
        written_styled hplain (.seeded fresh options.seed) options palette layout
      · exact .inl ⟨.surface error, fun font =>
          congrArg (Except.mapError RenderError.surface) (herror font)⟩
      · exact .inr ⟨front, back, hfront, hback, fun font =>
          congrArg (Except.mapError RenderError.surface) (hstyled font)⟩

/-- A font with a space in its name. -/
theorem ofDiagram_styled_firaSans :
    (∀ x : ℚ, Plain (Coordinate.text x)) ∧ OneStyle (styleBlock "Fira Sans") ∧
      Referring (styleBlock "Fira Sans") ∧
      Css.afterString .plain ("Fira Sans" ++ "'" ++ sheetBack).toList = some sheetBack.toList ∧
      ∃ diagram problems front back, Diagram.ofText "A -> B: hi" = .ok (diagram, problems) ∧
        Unstyled front ∧ Unstyled back ∧
        ofDiagram (.ofSeed 7) ({ font := some "Fira Sans" } : Options ℚ) diagram =
          .ok (front ++ styleBlock "Fira Sans" ++ back) := by
  obtain ⟨diagram, problems, document, hdiagram, hdocument⟩ :=
    exists_document_ofText (show ¬ (3 / 4 : ℚ) ≤ 0 by norm_num) (.ofSeed 7) "A -> B: hi"
  obtain ⟨hembedded, houtcome⟩ := ofDiagram_styled Coordinate.plain_text_rat (.ofSeed 7) {} diagram
  have hfamily := hembedded "Fira Sans"
  refine ⟨Coordinate.plain_text_rat, hfamily.tags.2 (by simp), hfamily.references.2 ?_,
    hfamily.string.2 ?_, diagram, problems, ?_⟩
  · exact marked_of_notMem (by simp)
  · exact (hfamily.unescaped (by simp)).2 (by simp [Css.isBreak])
  · obtain ⟨error, herror⟩ | ⟨front, back, hfront, hback, hstyled⟩ := houtcome
    · cases hdocument.symm.trans (herror none)
    · exact ⟨front, back, hdiagram, hfront, hback, hstyled (some "Fira Sans")⟩

/-- A font whose name ends the element. -/
theorem styleBlock_endTag : ¬ OneStyle (styleBlock "</style>") := by
  rw [oneStyle_iff]
  simp

end SequenceChart.Svg
