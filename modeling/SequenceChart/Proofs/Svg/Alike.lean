import SequenceChart.Diagram.OfText
import SequenceChart.Proofs.Drawing.Outlined
import SequenceChart.Proofs.Svg.Written

namespace SequenceChart

namespace Font

variable {α : Type} [Mul α] [Div α] [LT α] [DecidableLT α] [∀ n, OfNat α n]

/-- The estimated size of a label is that of its outline. -/
theorem labelSize_outline (font : Font α) (text : String) :
    font.labelSize (Label.outline text) = font.labelSize text := by
  have hwidth (line : String) : font.textWidth (Label.masked line) = font.textWidth line := by
    rw [textWidth, textWidth, Label.length_masked]
  have hlines : (Label.lines text).map Label.masked =
      Label.masked ((Label.lines text).headD "") :: ((Label.lines text).drop 1).map Label.masked := rfl
  rw [labelSize, labelSize, Label.lines_outline, hlines]
  simp only [List.headD_cons, List.drop_succ_cons, List.drop_zero, List.foldl_map, hwidth,
    List.length_cons, List.length_map]
  rfl

end Font

/-- Outlining the texts of a drawing is the same as outlining them when the calls come in. -/
theorem Drawing.run_outlined {α σ ε : Type} (surface : Surface α σ ε) (drawing : Drawing α) :
    drawing.outlined.run surface = drawing.run fun call => surface call.outlined := by
  induction drawing with
  | done => rfl
  | call c rest ih => rw [outlined, run, run, ih]
  | within dx dy body rest ihBody ihRest =>
    rw [outlined, run, run, ihBody, ihRest]
    rfl

namespace Svg

/-- A shape with the length of its line kept only. -/
def Shape.outlined {α : Type} : Shape α → Shape α
  | text content point anchor font color => text (Label.masked content) point anchor font color
  | shape => shape

namespace Canvas

theorem hollow_pieces {α : Type} [LT α] [DecidableLT α] [∀ n, OfNat α n] [Coordinate α]
    {canvas copy : Canvas α}
    (hshapes : canvas.shapes.map Shape.outlined = copy.shapes.map Shape.outlined) (family : String)
    (width height : α) (background : Color α) (transparent : Bool) :
    (canvas.pieces family width height background transparent).map Piece.hollow =
      (copy.pieces family width height background transparent).map Piece.hollow := by
  have houtlined (shapes : List (Shape α)) : (shapes.map Shape.piece).map Piece.hollow =
      (shapes.map Shape.outlined).map fun shape => shape.piece.hollow := by
    rw [List.map_map, List.map_map]
    refine List.map_congr_left fun shape _ => ?_
    cases shape <;> simp [Shape.outlined, Shape.piece, Piece.hollow]
  simp only [pieces, List.map_cons, List.map_append, houtlined, hshapes]

variable {α : Type} [Add α] [Mul α] [Div α] [∀ n, OfNat α n]

theorem lineShapes_outlined (font : Font α) (color : Color α) (anchor : Anchor) (x top : α) (i : Nat)
    (lines : List String) :
    lineShapes font color anchor x top i (lines.map Label.masked) =
      (lineShapes font color anchor x top i lines).map Shape.outlined := by
  induction lines generalizing i with
  | nil => rfl
  | cons line rest ih => exact congrArg _ (ih (i + 1))

variable [Sub α] [LT α] [DecidableLT α]

/-- A canvas and its outline. If strokes are straight, their sources of jitter may differ. -/
structure Mirrors (pen : Pen α) (canvas mirror : Canvas α) : Prop where
  shapes : mirror.shapes = canvas.shapes.map Shape.outlined
  depth : mirror.depth = canvas.depth
  random : 0 < pen.jitter → mirror.random = canvas.random

theorem strokeShape_outlined (jitter : α) (stroke : Stroke α) (random : Twister) :
    (strokeShape jitter stroke random).1.outlined = (strokeShape jitter stroke random).1 :=
  strokeShape_keeps (P := fun shape => shape.outlined = shape) (fun _ => rfl) (fun _ _ _ => rfl) ..

theorem strokeShapes_outlined (jitter : α) (strokes : List (Stroke α)) (random : Twister) :
    (strokeShapes jitter strokes random).1.map Shape.outlined =
      (strokeShapes jitter strokes random).1 :=
  (List.map_congr_left (strokeShapes_keep (fun _ => rfl) (fun _ _ _ => rfl) jitter strokes random)).trans
    (List.map_id _)

variable [BEq α] [Coordinate α]

theorem shapesOf_outlined (pen : Pen α) (call : Call α) (random : Twister) :
    (shapesOf pen call.outlined random).1 = (shapesOf pen call random).1.map Shape.outlined ∧
      (shapesOf pen call.outlined random).2 = (shapesOf pen call random).2 := by
  cases call with
  | rectangle corner size color =>
    refine ⟨?_, rfl⟩
    by_cases hjitter : 0 < pen.jitter
    · simp only [shapesOf, Call.outlined, outlineShapes, if_pos hjitter]
      exact (strokeShapes_outlined ..).symm
    · simp only [shapesOf, Call.outlined, outlineShapes, if_neg hjitter]
      rfl
  | line dashed start stop width color => exact ⟨(strokeShapes_outlined ..).symm, rfl⟩
  | arrow dashed start stop width color headLength headWidth =>
    refine ⟨?_, rfl⟩
    simp only [shapesOf, Call.outlined, arrowShapes]
    split
    · rfl
    · exact congrArg₂ List.cons (strokeShape_outlined ..).symm rfl
  | text label horizontal vertical corner size color =>
    have hunused (label : String) :
        (shapesOf pen (.text label horizontal vertical corner size color) random).2 = random := rfl
    refine ⟨?_, (hunused (Label.outline label)).trans (hunused label).symm⟩
    simp only [shapesOf, Call.outlined, textShapes, Label.lines_outline, List.length_map]
    cases anchorOf (α := α) horizontal with
    | error error => rfl
    | ok anchor => exact lineShapes_outlined ..
  | measure label =>
    have hnothing (label : String) : shapesOf pen (.measure label) random = ([], random) := rfl
    rw [Call.outlined, hnothing, hnothing]
    exact ⟨rfl, rfl⟩
  | fill | push | pop => exact ⟨rfl, rfl⟩

/-- Without jitter the source of jitter neither matters nor changes. -/
theorem shapesOf_straight {pen : Pen α} (hjitter : ¬ 0 < pen.jitter) (call : Call α) :
    ∃ shapes, shapesOf pen call = pure shapes := by
  cases call with
  | rectangle corner size color => exact ⟨_, if_neg hjitter⟩
  | line dashed start stop width color => exact ⟨_, strokeShapes_straight hjitter _⟩
  | arrow dashed start stop width color headLength headWidth =>
    simp only [shapesOf, arrowShapes, strokeShape_straight hjitter]
    split
    · exact ⟨_, rfl⟩
    · exact ⟨_, rfl⟩
  | text | fill | measure | push | pop => exact ⟨_, rfl⟩

variable [LE α] [DecidableLE α]

/-- A canvas answers the outline of a call as it answers the call. -/
theorem surface_outlined (pen : Pen α) (call : Call α) {canvas mirror : Canvas α}
    (hmirrors : Mirrors pen canvas mirror) :
    Related (Mirrors pen) ((surface pen call).run canvas) ((surface pen call.outlined).run mirror) := by
  have hrefusal : refusal? mirror.depth call.outlined = refusal? canvas.depth call := by
    rw [hmirrors.depth]
    cases call <;> rfl
  rw [surface_run, surface_run, hrefusal]
  cases refusal? canvas.depth call with
  | some error => exact ⟨rfl, hmirrors⟩
  | none =>
    obtain ⟨hshapes, hrandom⟩ := shapesOf_outlined pen call mirror.random
    have hdescent : call.outlined.descent = call.descent := by cases call <;> rfl
    refine ⟨rfl, ?_, ?_, ?_⟩
    · have hsame : (shapesOf pen call mirror.random).1 = (shapesOf pen call canvas.random).1 := by
        by_cases hjitter : 0 < pen.jitter
        · rw [hmirrors.random hjitter]
        · obtain ⟨shapes, hstraight⟩ := shapesOf_straight hjitter call
          rw [hstraight]
          rfl
      simp only [painted, hshapes, hsame, hmirrors.shapes, List.map_append]
    · simp only [painted, hdescent, hmirrors.depth]
    · intro hjitter
      rw [painted, painted, hrandom, hmirrors.random hjitter]

/-- Drawings with the same outline are performed in the same way, and leave canvases with the same
    outline. -/
theorem run_alike {pen : Pen α} {first second : Drawing α} (houtline : first.outlined = second.outlined)
    {random other : Twister} (hrandom : 0 < pen.jitter → other = random) :
    Related (fun canvas copy => canvas.depth = copy.depth ∧
        canvas.shapes.map Shape.outlined = copy.shapes.map Shape.outlined)
      ((first.run (surface pen)).run (empty random)) ((second.run (surface pen)).run (empty other)) := by
  have hsame : Mirrors pen (empty random) (empty random) := ⟨rfl, rfl, fun _ => rfl⟩
  have hother : Mirrors pen (empty other) (empty random) :=
    ⟨rfl, rfl, fun hjitter => (hrandom hjitter).symm⟩
  have hown := Drawing.run_related (surface_outlined pen) first hsame
  have hcopy := Drawing.run_related (surface_outlined pen) second hother
  rw [← Drawing.run_outlined] at hown hcopy
  rw [← houtline] at hcopy
  obtain ⟨hresult, hshapes, hdepth, -⟩ := hown
  obtain ⟨hresult', hshapes', hdepth', -⟩ := hcopy
  exact ⟨hresult.trans hresult'.symm, hdepth.symm.trans hdepth', hshapes.symm.trans hshapes'⟩

end Canvas

section Documents

variable {α : Type} [Add α] [Sub α] [Mul α] [Div α] [LT α] [DecidableLT α] [LE α] [DecidableLE α]
  [BEq α] [∀ n, OfNat α n] [Coordinate α]

theorem drawn_alike {options : Options α} {random other : Twister}
    (hrandom : 0 < options.jitter.getD 0 → other = random) (seed : Option Int) (palette : Palette α)
    {layout copy : Layout α} (houtline : layout.outlined = copy.outlined) :
    Related (fun canvas copy => canvas.depth = copy.depth ∧
        canvas.shapes.map Shape.outlined = copy.shapes.map Shape.outlined)
      (drawn random options palette layout) (drawn other { options with seed } palette copy) := by
  have hmeasure := Font.labelSize_outline (Pen.ofOptions options).font
  have hdrawing := Drawing.ofLayout_outlined hmeasure palette
  refine Canvas.run_alike ?_ hrandom
  rw [← hdrawing layout, houtline]
  exact hdrawing copy

/-- The outcomes for two diagrams are the same error, or documents of the same pieces but for the
    contents of texts, which stand for the lines of the diagrams' texts. -/
def Correspond {E : Type} (family : String) (first second : Diagram) :
    Except E String → Except E String → Prop
  | .error error, .error other => error = other
  | .ok document, .ok other => ∃ pieces copies,
    Consists document family pieces (first.shown.flatMap Label.lines) ∧
      Consists other family copies (second.shown.flatMap Label.lines) ∧
      pieces.map Piece.hollow = copies.map Piece.hollow
  | _, _ => False

theorem Correspond.mapError {E F : Type} {family : String} {first second : Diagram}
    {own other : Except E String} (hcorrespond : Correspond family first second own other) (f : E → F) :
    Correspond family first second (own.mapError f) (other.mapError f) := by
  cases own <;> cases other
  · exact congrArg f hcorrespond
  · exact hcorrespond
  · exact hcorrespond
  · exact hcorrespond

variable (hplain : ∀ x : α, Xml.Plain (Coordinate.text x)) {options : Options α}

include hplain

theorem written_correspond {random other : Twister}
    (hrandom : 0 < options.jitter.getD 0 → other = random) (seed : Option Int) (palette : Palette α)
    {layout copy : Layout α} (houtline : layout.outlined = copy.outlined) {grid grid' : Grid α}
    {first second : Diagram} (hfirst : layout.Presents grid first)
    (hsecond : copy.Presents grid' second) :
    Correspond (Pen.ofOptions options).family first second (written random options palette layout)
      (written other { options with seed } palette copy) := by
  obtain ⟨hresult, hdepth, hshapes⟩ := drawn_alike hrandom seed palette houtline
  rcases hdrawn : drawn random options palette layout with ⟨result, canvas⟩
  rcases hother : drawn other { options with seed } palette copy with ⟨result', mirror⟩
  simp only [hdrawn, hother] at hresult hdepth hshapes
  subst hresult
  cases result with
  | error error =>
    simp only [written, hdrawn, hother]
    rfl
  | ok _ =>
    have hsize : layout.outlined.width = copy.outlined.width ∧
        layout.outlined.height = copy.outlined.height := by
      rw [houtline]
      exact ⟨rfl, rfl⟩
    obtain ⟨hwidth, hheight⟩ : layout.width = copy.width ∧ layout.height = copy.height := hsize
    have hpen : Pen.ofOptions { options with seed } = Pen.ofOptions options := rfl
    simp only [written, hdrawn, hother, hwidth, hheight, hpen]
    by_cases hclosed : canvas.depth = 0
    · have hconsists (canvas : Canvas α) := canvas.consists_elements hplain
        (Pen.ofOptions options).family (larger copy.width 1) (larger copy.height 1) palette.background
        (options.transparent.getD false)
      have hown := hconsists canvas
      have hcopy := hconsists mirror
      rw [contents_drawn hfirst hdrawn] at hown
      rw [contents_drawn hsecond hother] at hcopy
      simp only [Canvas.document, ← hdepth, if_pos hclosed]
      exact ⟨_, _, hown, hcopy, Canvas.hollow_pieces hshapes ..⟩
    · simp only [Canvas.document, ← hdepth, if_neg hclosed]
      rfl

/-- Alike diagrams have corresponding outcomes. The generators must agree only if strokes sway. -/
theorem ofDiagram_correspond {fresh other : Twister} {seed : Option Int}
    (hrandom : 0 < options.jitter.getD 0 →
      Twister.seeded other seed = Twister.seeded fresh options.seed)
    {first second : Diagram} (halike : first.Alike second) :
    Correspond (Pen.ofOptions options).family first second (ofDiagram fresh options first)
      (ofDiagram other { options with seed } second) := by
  have hmeasure := Font.labelSize_outline (Pen.ofOptions options).font
  have hlayouts := Layout.ofDiagram_outlined hmeasure (Spacing.ofOptions options) first
  rw [halike.outlined_eq, Layout.ofDiagram_outlined hmeasure] at hlayouts
  have hpen : Pen.ofOptions { options with seed } = Pen.ofOptions options := rfl
  have hspacing : Spacing.ofOptions { options with seed } = Spacing.ofOptions options := rfl
  have hpalette : Palette.ofOptions { options with seed } = Palette.ofOptions options := rfl
  rw [ofDiagram_eq, ofDiagram_eq, hpen, hspacing, hpalette]
  cases hfirst : Layout.ofDiagram (Pen.ofOptions options).font.labelSize (Spacing.ofOptions options)
      first with
  | error error =>
    cases hsecond : Layout.ofDiagram (Pen.ofOptions options).font.labelSize
        (Spacing.ofOptions options) second with
    | error other =>
      rw [hfirst, hsecond] at hlayouts
      exact congrArg RenderError.layout (Except.error.inj hlayouts).symm
    | ok copy =>
      rw [hfirst, hsecond] at hlayouts
      cases hlayouts
  | ok layout =>
    cases hsecond : Layout.ofDiagram (Pen.ofOptions options).font.labelSize
        (Spacing.ofOptions options) second with
    | error other =>
      rw [hfirst, hsecond] at hlayouts
      cases hlayouts
    | ok copy =>
      rw [hfirst, hsecond] at hlayouts
      obtain ⟨_, -, hown⟩ := Layout.ofDiagram_presents hfirst
      obtain ⟨_, -, hother⟩ := Layout.ofDiagram_presents hsecond
      cases Palette.ofOptions options with
      | error error => rfl
      | ok palette =>
        exact (written_correspond hplain hrandom seed palette (Except.ok.inj hlayouts).symm hown
          hother).mapError RenderError.surface

/-- The texts of a diagram reach its document only as the contents of text elements, where they are
    written such that they stand for themselves. No other text element is there, except for what is in
    the family. So texts of the same lengths leave the elements and their attributes as they are, if
    strokes are straight or there is a seed. -/
theorem ofDiagram_textual (options : Options α) :
    (∀ fresh diagram document, ofDiagram fresh options diagram = .ok document →
      ∃ pieces, Consists document (Pen.ofOptions options).family pieces
        (diagram.shown.flatMap Label.lines)) ∧
    ∀ (fresh other : Twister) (seed : Option Int) (first second : Diagram),
      (0 < options.jitter.getD 0 → ∃ given, options.seed = some given ∧ seed = some given) →
      first.Alike second →
        Correspond (Pen.ofOptions options).family first second (ofDiagram fresh options first)
          (ofDiagram other { options with seed } second) := by
  constructor
  · intro fresh diagram document hdocument
    obtain ⟨canvas, width, height, background, transparent, -, hcontents, rfl⟩ :=
      elements_of_ofDiagram hdocument
    rw [← hcontents]
    exact ⟨_, canvas.consists_elements hplain _ width height background transparent⟩
  · intro fresh other seed first second hseed halike
    refine ofDiagram_correspond hplain (fun hjitter => ?_) halike
    obtain ⟨given, hown, hother⟩ := hseed hjitter
    rw [hown, hother]
    rfl

end Documents

/-- All characters that are escaped are in these texts. -/
theorem ofDiagram_textual_special :
    let body (label guard : String) : Body :=
      .signal ⟨"A", "B", label, .solid, true⟩
        (.fragment "alt" (.cons guard (.signal ⟨"B", "B", "", .dashed, true⟩ .empty)
          (.cons "else" .empty .none)) .empty)
    let diagram (title name label guard : String) : Diagram :=
      { title := some title, participants := [⟨"A", name⟩, ⟨"B", "B"⟩],
        content := ⟨"", body label guard⟩ }
    let first := diagram "a<b" "x & y" "p\\nqq" "k"
    let second := diagram "'_'" "<!-->" "\"\\n>>" "\\"
    let options : Options ℚ := { theme := some "nord", jitter := some 2, seed := some 1 }
    (∀ x : ℚ, Xml.Plain (Coordinate.text x)) ∧ first.Alike second ∧ ∃ document other,
      ofDiagram (.ofSeed 7) options first = .ok document ∧
      ofDiagram (.ofSeed 8) options second = .ok other ∧
      (∃ pieces, Consists document "Inter" pieces
        ["a<b", "alt [k]", "[else]", "p", "qq", "x & y", "B"]) ∧
      ∃ pieces copies,
        Consists document "Inter" pieces ["a<b", "alt [k]", "[else]", "p", "qq", "x & y", "B"] ∧
          Consists other "Inter" copies ["'_'", "alt [\\]", "[else]", "\"", ">>", "<!-->", "B"] ∧
          pieces.map Piece.hollow = copies.map Piece.hollow := by
  intro body diagram first second options
  have hlabels {a b : String}
      (h : (Label.lines a).map String.length = (Label.lines b).map String.length) :
      Label.Alike a b := h
  have halike : first.Alike second := by
    have hparticipant : Participant.Alike ⟨"A", "x & y"⟩ ⟨"A", "<!-->"⟩ := ⟨rfl, hlabels (by decide)⟩
    have hmessage : Signal.Alike ⟨"A", "B", "p\\nqq", .solid, true⟩
        ⟨"A", "B", "\"\\n>>", .solid, true⟩ :=
      ⟨rfl, rfl, rfl, rfl, hlabels (by decide)⟩
    refine ⟨.some (hlabels (by decide)), .cons hparticipant (.cons (.refl _) .nil), .refl _, ?_⟩
    exact .signal hmessage (.fragment "alt" (.cons (hlabels (by decide)) (.refl _) (.refl _)) .empty)
  have hquarters : ¬ (3 / 4 : ℚ) ≤ 0 := by norm_num
  have haccepted : ¬ options.Rejected := by simp [options, Options.Rejected, nonempty?, Colors.themes]
  have hrefers : ∀ name ∈ first.content.body.named, name ∈ first.names := by decide
  obtain ⟨document, hdocument⟩ := exists_document hquarters (.ofSeed 7) haccepted hrefers
  obtain ⟨hconsists, hcorresponds⟩ := ofDiagram_textual Coordinate.plain_text_rat options
  have hcorrespond := hcorresponds (.ofSeed 7) (.ofSeed 8) (some 1) first second
    (fun _ => ⟨1, rfl, rfl⟩) halike
  have hfamily : (Pen.ofOptions options).family = "Inter" := by decide
  have hshown : first.shown.flatMap Label.lines =
      ["a<b", "alt [k]", "[else]", "p", "qq", "x & y", "B"] := by decide
  have hsecond : second.shown.flatMap Label.lines =
      ["'_'", "alt [\\]", "[else]", "\"", ">>", "<!-->", "B"] := by decide
  obtain ⟨pieces, hpieces⟩ := hconsists _ first document hdocument
  have hoptions : { options with seed := some 1 } = options := rfl
  rw [hdocument, hoptions] at hcorrespond
  cases hother : ofDiagram (.ofSeed 8) options second with
  | error error =>
    rw [hother] at hcorrespond
    exact hcorrespond.elim
  | ok other =>
    rw [hother] at hcorrespond
    rw [hshown, hfamily] at hpieces
    simp only [Correspond, hshown, hsecond, hfamily] at hcorrespond
    exact ⟨Coordinate.plain_text_rat, halike, document, other, hdocument, rfl, ⟨pieces, hpieces⟩,
      hcorrespond⟩

/-- A font whose name ends the style block brings a text with it that is no line of the diagram. -/
theorem ofDiagram_textInFont :
    let options : Options ℚ := { font := some "</style><text>it's</text><style>" }
    ∃ diagram document, Diagram.ofText "" = .ok (diagram, []) ∧ diagram.shown = [] ∧
      ofDiagram (.ofSeed 7) options diagram = .ok document ∧
      textTags document = [.opening "text", .closing "text"] ∧
      "<text>it's</text>".toList <:+: document.toList ∧ ∀ line, ¬ Text.Encodes "it's" line := by
  intro options
  let diagram : Diagram := { content := ⟨"", .empty⟩ }
  have hdiagram : Diagram.ofText "" = .ok (diagram, []) := by cbv
  have hquarters : ¬ (3 / 4 : ℚ) ≤ 0 := by norm_num
  have haccepted : ¬ options.Rejected := by simp [options, Options.Rejected, nonempty?]
  have hrefers : ∀ name ∈ diagram.content.body.named, name ∈ diagram.names := by decide
  obtain ⟨document, hdocument⟩ := exists_document hquarters (.ofSeed 7) haccepted hrefers
  obtain ⟨canvas, width, height, background, transparent, -, hcontents, rfl⟩ :=
    elements_of_ofDiagram hdocument
  have hconsists := canvas.consists_elements Coordinate.plain_text_rat (Pen.ofOptions options).family
    width height background transparent
  refine ⟨diagram, _, hdiagram, by decide, hdocument, ?_, ?_, fun line hencodes => ?_⟩
  · rw [hconsists.tags, hcontents]
    decide
  · have hfamily : "<text>it's</text>".toList <:+: (Pen.ofOptions options).family.toList := by decide
    exact hfamily.trans (canvas.family_infix_elements ..)
  · exact hencodes.plain '\'' (by decide) (by decide)

end Svg

end SequenceChart
