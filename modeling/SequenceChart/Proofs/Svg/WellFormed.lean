import SequenceChart.Proofs.Drawing.Sourced
import SequenceChart.Proofs.Svg.Written

namespace SequenceChart.Svg

open Xml Attribute

section Elements

variable {α : Type} [LT α] [DecidableLT α] [∀ n, OfNat α n] [Coordinate α]

/-- Shapes whose groups are nested are the content of an element. -/
theorem content_of_nested (hplain : ∀ x : α, Plain (Coordinate.text x)) {shapes : List (Shape α)}
    (hnested : Nested shapes) : Content (String.join ((shapes.map Shape.render).map ("\n" ++ ·))) := by
  have hbreak : Content "\n" := .of_data (Plain.data (by decide))
  induction hnested with
  | nil => exact .empty
  | plain hshape _ ih =>
    rw [List.map_cons, List.map_cons, String.join_cons]
    exact (hbreak.append (Shape.render_sound hplain hshape).1).append ih
  | group dx dy _ _ ihInner ihRest =>
    have hcontent := hbreak.append (.element (show isName "g" by decide)
      ((Shape.keeps_transform hplain dx dy).startTag (by decide)) (ihInner.append hbreak) ihRest)
    have hbegin : "<g" = "<" ++ "g" := rfl
    have hend : "</g>" = "</" ++ ("g" ++ ">") := rfl
    simp only [List.cons_append, List.map_cons, List.map_append, String.join_cons, String.join_append,
      Shape.render, hbegin, hend]
    simpa only [String.append_assoc] using hcontent

/-- A shape has allowed characters only if and only if its line has. -/
theorem Shape.allowed_render (hplain : ∀ x : α, Plain (Coordinate.text x)) (shape : Shape α) :
    Allowed shape.render ↔ ∀ line ∈ shape.content?, Allowed line := by
  cases shape with
  | openGroup dx dy =>
    have hattributes := (keeps_transform hplain dx dy).allowed_render (by decide)
    have hmarks : Allowed "<g" ∧ Allowed ">" := by decide
    have hallowed : Allowed (openGroup dx dy).render := by
      simp only [render, allowed_append, hattributes, hmarks, true_and]
    exact iff_of_true hallowed (by simp [content?])
  | closeGroup => exact iff_of_true (show Allowed "</g>" by decide) (by simp [content?])
  | _ =>
    refine (render_sound hplain ?_).2
    trivial

namespace Canvas

variable {canvas : Canvas α}

/-- What a canvas makes of elements whose groups are nested is a document. Whether its characters are
    allowed is up to the lines that it shows. -/
theorem document_elements (hplain : ∀ x : α, Plain (Coordinate.text x))
    (hnested : Nested canvas.shapes) {family : String} (hfamily : Plain family)
    (width height : α) (background : Color α) (transparent : Bool) :
    Document (joinLines (canvas.elements family width height background transparent)) ∧
      (Allowed (joinLines (canvas.elements family width height background transparent)) ↔
        ∀ line ∈ canvas.shapes.filterMap Shape.content?, Allowed line) := by
  have hkeeps := keeps_openTag hplain width height background transparent
  have hfit : Fit ["xmlns", "viewBox", "width", "height", "style"] := by decide
  constructor
  · have hbreak : Content "\n" := .of_data (Plain.data (by decide))
    have hshapes := content_of_nested hplain hnested
    refine ⟨"svg", _, _, _, by decide, hkeeps.startTag hfit,
      (hbreak.append (content_styleBlock hfamily)).append (hshapes.append hbreak), ?_⟩
    have hbegin : "<svg" = "<" ++ "svg" := rfl
    have hend : "</svg>" = "</" ++ ("svg" ++ ">") := rfl
    simp only [elements, joinLines_cons, List.map_cons, List.map_append, List.map_nil, String.join_cons,
      String.join_append, String.join_nil, openTag, hbegin, hend, String.append_assoc, String.append_empty]
  · have hattributes := hkeeps.allowed_render hfit
    have hopen : Allowed (openTag (Coordinate.text width) (Coordinate.text height) background
        transparent) := by
      have hmarks : Allowed "<svg" ∧ Allowed ">" := by decide
      rw [openTag, allowed_append, allowed_append]
      exact ⟨⟨hmarks.1, hattributes⟩, hmarks.2⟩
    have hend : Allowed "</svg>" := by decide
    simp only [allowed_joinLines, elements, List.forall_mem_cons, List.forall_mem_append, hopen,
      allowed_styleBlock hfamily, hend, true_and, List.forall_mem_map, Shape.allowed_render hplain,
      List.mem_filterMap, Option.mem_def]
    constructor
    · rintro ⟨hallowed, -⟩ line ⟨shape, hshape, hline⟩
      exact hallowed shape hshape line hline
    · intro hallowed
      exact ⟨fun shape hshape line hline => hallowed line ⟨shape, hshape, hline⟩, List.forall_mem_nil _⟩

end Canvas

end Elements

/-- A label has allowed characters only if and only if its lines have. -/
theorem allowed_lines (label : String) :
    (∀ line ∈ Label.lines label, Allowed line) ↔ Allowed label := by
  have hsplit (cs : List Char) : ((∀ c ∈ (Label.splitBreaks cs).1, isChar c) ∧
      ∀ line ∈ (Label.splitBreaks cs).2, ∀ c ∈ line, isChar c) ↔ ∀ c ∈ cs, isChar c := by
    fun_induction Label.splitBreaks cs with
    | case1 rest split ih =>
      have hmarks : isChar '\\' ∧ isChar 'n' := by decide
      simp only [List.forall_mem_cons, hmarks, true_and]
      exact (and_iff_right (List.forall_mem_nil _)).trans ih
    | case2 c rest hbreak split ih =>
      rw [List.forall_mem_cons, List.forall_mem_cons, and_assoc]
      exact and_congr_right fun _ => ih
    | case3 => exact iff_of_true ⟨List.forall_mem_nil _, List.forall_mem_nil _⟩ (List.forall_mem_nil _)
  rw [Label.lines, List.forall_mem_cons, List.forall_mem_map]
  simp only [Allowed, String.toList_ofList]
  exact hsplit label.toList

theorem allowed_of_sourced {source text : String} (hsourced : Sourced source text)
    (hsource : Allowed source) : Allowed text := by
  intro c hc
  obtain hc | hc := List.mem_append.1 (hsourced hc)
  · exact hsource c hc
  · have hmarks : [' ', '[', ']'].all isChar := by decide
    exact List.all_eq_true.1 hmarks c hc

variable {α : Type} [Add α] [Sub α] [Mul α] [Div α] [LT α] [DecidableLT α] [LE α] [DecidableLE α]
  [BEq α] [∀ n, OfNat α n] [Coordinate α]

/-- What is made of a diagram with a plain font is a document. Whether its characters are allowed is up
    to the texts of the diagram. -/
theorem document_of_ofDiagram (hplain : ∀ x : α, Plain (Coordinate.text x)) {fresh : Twister}
    {options : Options α} (hfamily : Plain (Pen.ofOptions options).family) {diagram : Diagram}
    {document : String} (hdocument : ofDiagram fresh options diagram = .ok document) :
    Document document ∧ (Allowed document ↔ ∀ label ∈ diagram.shown, Allowed label) := by
  obtain ⟨canvas, width, height, background, transparent, hnested, hcontents, rfl⟩ :=
    elements_of_ofDiagram hdocument
  obtain ⟨hmarkup, hallowed⟩ :=
    Canvas.document_elements hplain hnested hfamily width height background transparent
  refine ⟨hmarkup, hallowed.trans ?_⟩
  rw [hcontents, List.forall_mem_flatMap]
  exact forall₂_congr fun label _ => allowed_lines label

/-- Every text is drawn with the default options. -/
theorem exists_document_ofText (hquarters : ¬ (3 / 4 : α) ≤ 0) (fresh : Twister) (text : String) :
    ∃ diagram problems document, Diagram.ofText text = .ok (diagram, problems) ∧
      ofDiagram fresh ({} : Options α) diagram = .ok document := by
  have hrefers := (Diagram.foldl_after_ofText_wellFormed text).refers
  have haccepted : ¬ ({} : Options α).Rejected := by simp [Options.Rejected, nonempty?]
  obtain ⟨document, hdocument⟩ := exists_document hquarters fresh haccepted hrefers
  exact ⟨_, _, document, Diagram.ofText_eq_ok text, hdocument⟩

/-- Every text has a document, whose elements are nested and whose attributes and data are written
    without markup in them. It is well formed unless the diagram shows a character that is not allowed,
    which escaping passes on. Such a character comes from the text. -/
theorem ofText_wellFormed_iff (hquarters : ¬ (3 / 4 : α) ≤ 0)
    (hplain : ∀ x : α, Plain (Coordinate.text x)) (fresh : Twister) (text : String) :
    ∃ diagram problems document, Diagram.ofText text = .ok (diagram, problems) ∧
      ofDiagram fresh ({} : Options α) diagram = .ok document ∧ Document document ∧
      (WellFormed document ↔ ∀ label ∈ diagram.shown, Allowed label) ∧
      (Allowed text → WellFormed document) := by
  obtain ⟨diagram, problems, document, hdiagram, hdocument⟩ :=
    exists_document_ofText hquarters fresh text
  have hfamily : Plain (Pen.ofOptions ({} : Options α)).family := show Plain "Inter" by decide
  obtain ⟨hmarkup, hallowed⟩ := document_of_ofDiagram hplain hfamily hdocument
  have hformed : WellFormed document ↔ ∀ label ∈ diagram.shown, Allowed label :=
    ⟨fun hformed => hallowed.1 hformed.allowed, fun hshown => ⟨hmarkup, hallowed.2 hshown⟩⟩
  exact ⟨diagram, problems, document, hdiagram, hdocument, hmarkup, hformed, fun htext =>
    hformed.2 fun label hlabel =>
      allowed_of_sourced (Diagram.sourced_of_ofText hdiagram label hlabel) htext⟩

/-- Markup in titles, guards, names and labels, also what ends a section, does no harm. -/
theorem ofText_wellFormed_iff_markup :
    let text := "title R&D <1>\nopt \"it's\"\nA -> \"B>\": ]]>\nend"
    ¬ (3 / 4 : ℚ) ≤ 0 ∧ (∀ x : ℚ, Plain (Coordinate.text x)) ∧
      ∃ diagram problems document, Diagram.ofText text = .ok (diagram, problems) ∧
        ofDiagram (.ofSeed 7) ({} : Options ℚ) diagram = .ok document ∧ Document document ∧
        (WellFormed document ↔ ∀ label ∈ diagram.shown, Allowed label) ∧
        Allowed text ∧ WellFormed document := by
  intro text
  have hquarters : ¬ (3 / 4 : ℚ) ≤ 0 := by norm_num
  have htext : Allowed text := by decide
  obtain ⟨diagram, problems, document, hdiagram, hdocument, hmarkup, hformed, hallowed⟩ :=
    ofText_wellFormed_iff hquarters Coordinate.plain_text_rat (.ofSeed 7) text
  exact ⟨hquarters, Coordinate.plain_text_rat, diagram, problems, document, hdiagram, hdocument, hmarkup,
    hformed, htext, hallowed htext⟩

/-- A control character in the label of a signal reaches the document. -/
theorem ofText_malformed :
    ∃ diagram document, Diagram.ofText "A -> B: ring\x01" = .ok (diagram, []) ∧
      ofDiagram (.ofSeed 7) ({} : Options ℚ) diagram = .ok document ∧ ¬ WellFormed document := by
  let message : Signal := ⟨"A", "B", "ring\x01", .solid, true⟩
  let diagram : Diagram :=
    { participants := [⟨"A", "A"⟩, ⟨"B", "B"⟩], content := ⟨"", .signal message .empty⟩ }
  have hdiagram : Diagram.ofText "A -> B: ring\x01" = .ok (diagram, []) := by cbv
  obtain ⟨own, problems, document, hown, hdocument⟩ :=
    exists_document_ofText (show ¬ (3 / 4 : ℚ) ≤ 0 by norm_num) (.ofSeed 7) "A -> B: ring\x01"
  obtain ⟨rfl, rfl⟩ : diagram = own ∧ [] = problems :=
    Prod.mk.inj (Except.ok.inj (hdiagram.symm.trans hown))
  refine ⟨diagram, document, hdiagram, hdocument, fun hformed => ?_⟩
  have hfamily : Plain (Pen.ofOptions ({} : Options ℚ)).family := show Plain "Inter" by decide
  have hshown := (document_of_ofDiagram Coordinate.plain_text_rat hfamily hdocument).2.1 hformed.allowed
  have hlabel : "ring\x01" ∈ diagram.shown := by decide
  exact absurd (hshown _ hlabel) (by decide)

end SequenceChart.Svg
