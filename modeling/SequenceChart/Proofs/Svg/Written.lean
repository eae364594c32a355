import SequenceChart.Proofs.Drawing.Success
import SequenceChart.Proofs.Svg.Elements

namespace SequenceChart.Svg

variable {α : Type} [Add α] [Sub α] [Mul α] [Div α] [LT α] [DecidableLT α] [LE α] [DecidableLE α]
  [BEq α] [∀ n, OfNat α n] [Coordinate α]

namespace Canvas

/-- A canvas is not changed by questions for sizes. -/
theorem measureAll_run (pen : Pen α) (texts : List String) (canvas : Canvas α) :
    ((surface pen).measureAll texts).run canvas = (.ok (), canvas) := by
  rw [Surface.measureAll, Drawing.run_eq_ok_iff, Drawing.calls_ofCalls]
  induction texts with
  | nil => rfl
  | cons text rest ih => exact ⟨canvas, rfl, ih⟩

/-- On a canvas a diagram is laid out before its colours are looked at, and both before it is drawn. -/
theorem render_run (pen : Pen α) (measure : String → Size α) (options : Options α) (diagram : Diagram)
    (canvas : Canvas α) :
    (diagram.render (surface pen) measure options).run canvas =
      match Layout.ofDiagram measure (Spacing.ofOptions options) diagram with
      | .error error => (.error (.layout error), canvas)
      | .ok layout =>
        match Palette.ofOptions options with
        | .error error => (.error (.palette error), canvas)
        | .ok palette =>
          match ((Drawing.ofLayout measure palette layout).run (surface pen)).run canvas with
          | (.error error, after) => (.error (.surface error), after)
          | (.ok _, after) => (.ok layout, after) := by
  simp only [Diagram.render, Drawing.run_bind, run_adapt, measureAll_run, run_mk_pure]
  cases Layout.ofDiagram measure (Spacing.ofOptions options) diagram with
  | error error => rfl
  | ok layout =>
    cases Palette.ofOptions options with
    | error error => rfl
    | ok palette =>
      simp only [Except.mapError]
      rcases ((Drawing.ofLayout measure palette layout).run (surface pen)).run canvas
        with ⟨_ | _, _⟩ <;> rfl

theorem tracks_of_answers {pen : Pen α} {calls : List (Call α)} {start after : Canvas α}
    (htracks : start.Tracks) (hanswers : (surface pen).Answers start calls after) : after.Tracks := by
  induction calls generalizing start with
  | nil =>
    obtain rfl : start = after := hanswers
    exact htracks
  | cons call rest ih =>
    obtain ⟨middle, hcall, hrest⟩ := hanswers
    rw [surface_run] at hcall
    cases hrefusal : refusal? start.depth call with
    | some error =>
      simp only [hrefusal] at hcall
      cases hcall
    | none =>
      simp only [hrefusal] at hcall
      cases hcall
      exact ih (htracks.painted hrefusal) hrest

end Canvas

/-- The drawing of a laid out diagram on an empty canvas. -/
def drawn (random : Twister) (options : Options α) (palette : Palette α) (layout : Layout α) :
    Except (CanvasError α) Unit × Canvas α :=
  ((Drawing.ofLayout (Pen.ofOptions options).font.labelSize palette layout).run
    (Canvas.surface (Pen.ofOptions options))).run (Canvas.empty random)

/-- The document of a laid out diagram. -/
def written (random : Twister) (options : Options α) (palette : Palette α) (layout : Layout α) :
    Except (CanvasError α) String :=
  match drawn random options palette layout with
  | (.error error, _) => .error error
  | (.ok _, canvas) =>
    canvas.document (Pen.ofOptions options).family (larger layout.width 1) (larger layout.height 1)
      palette.background (options.transparent.getD false)

theorem ofDiagram_eq (fresh : Twister) (options : Options α) (diagram : Diagram) :
    ofDiagram fresh options diagram =
      match Layout.ofDiagram (Pen.ofOptions options).font.labelSize (Spacing.ofOptions options)
        diagram with
      | .error error => .error (.layout error)
      | .ok layout =>
        match Palette.ofOptions options with
        | .error error => .error (.palette error)
        | .ok palette =>
          (written (.seeded fresh options.seed) options palette layout).mapError .surface := by
  have hrender := Canvas.render_run (Pen.ofOptions options) (Pen.ofOptions options).font.labelSize
    options diagram (Canvas.empty (.seeded fresh options.seed))
  simp only [ofDiagram, StateT.run, ExceptT.run] at hrender ⊢
  rw [hrender]
  cases Layout.ofDiagram (Pen.ofOptions options).font.labelSize (Spacing.ofOptions options) diagram with
  | error error => rfl
  | ok layout =>
    cases Palette.ofOptions options with
    | error error => rfl
    | ok palette =>
      simp only [written, drawn, ExceptT.run, Except.mapError]
      rcases (Drawing.ofLayout (Pen.ofOptions options).font.labelSize palette layout).run
        (Canvas.surface (Pen.ofOptions options)) (Canvas.empty (.seeded fresh options.seed))
        with ⟨_ | _, _⟩ <;> rfl

/-- The drawing of a diagram that is performed to its end shows the lines of all its texts. -/
theorem contents_drawn {random : Twister} {options : Options α} {palette : Palette α} {layout : Layout α}
    {grid : Grid α} {diagram : Diagram} (hpresents : layout.Presents grid diagram) {canvas : Canvas α}
    (hdrawn : drawn random options palette layout = (.ok (), canvas)) :
    canvas.shapes.filterMap Shape.content? = diagram.shown.flatMap Label.lines := by
  have hcontents := Canvas.contents_of_answers (Drawing.run_eq_ok_iff.1 hdrawn)
  rw [← Drawing.texts_ofLayout (Pen.ofOptions options).font.labelSize palette hpresents]
  exact hcontents

/-- What is written of a laid out diagram are the elements of a canvas whose groups are nested, and
    which shows the lines of the texts of the diagram. -/
theorem elements_of_written {random : Twister} {options : Options α} {palette : Palette α}
    {layout : Layout α} {grid : Grid α} {diagram : Diagram} (hpresents : layout.Presents grid diagram)
    {document : String} (hwritten : written random options palette layout = .ok document) :
    ∃ canvas : Canvas α, Nested canvas.shapes ∧
      canvas.shapes.filterMap Shape.content? = diagram.shown.flatMap Label.lines ∧
      document = joinLines (canvas.elements (Pen.ofOptions options).family (larger layout.width 1)
        (larger layout.height 1) palette.background (options.transparent.getD false)) := by
  rw [written] at hwritten
  rcases hdrawn : drawn random options palette layout with ⟨_ | _, canvas⟩
  · rw [hdrawn] at hwritten
    cases hwritten
  · simp only [hdrawn, Canvas.document] at hwritten
    have htracks := Canvas.tracks_of_answers (Canvas.tracks_empty random) (Drawing.run_eq_ok_iff.1 hdrawn)
    split at hwritten
    · next hclosed =>
      cases hwritten
      rw [Canvas.Tracks, hclosed] at htracks
      exact ⟨canvas, htracks.closed, contents_drawn hpresents hdrawn, rfl⟩
    · cases hwritten

/-- A diagram with a document has been laid out, coloured and drawn. -/
theorem written_of_ofDiagram {fresh : Twister} {options : Options α} {diagram : Diagram}
    {document : String} (hdocument : ofDiagram fresh options diagram = .ok document) :
    ∃ layout palette, Layout.ofDiagram (Pen.ofOptions options).font.labelSize
        (Spacing.ofOptions options) diagram = .ok layout ∧
      written (.seeded fresh options.seed) options palette layout = .ok document := by
  rw [ofDiagram_eq] at hdocument
  split at hdocument
  · cases hdocument
  · next layout hlayout =>
    split at hdocument
    · cases hdocument
    · next palette hpalette =>
      refine ⟨layout, palette, hlayout, ?_⟩
      cases hwritten : written (.seeded fresh options.seed) options palette layout with
      | error error =>
        rw [hwritten] at hdocument
        cases hdocument
      | ok own =>
        rw [hwritten] at hdocument
        cases hdocument
        rfl

theorem elements_of_ofDiagram {fresh : Twister} {options : Options α} {diagram : Diagram}
    {document : String} (hdocument : ofDiagram fresh options diagram = .ok document) :
    ∃ (canvas : Canvas α) (width height : α) (background : Color α) (transparent : Bool),
      Nested canvas.shapes ∧
      canvas.shapes.filterMap Shape.content? = diagram.shown.flatMap Label.lines ∧
      document = joinLines (canvas.elements (Pen.ofOptions options).family width height background
        transparent) := by
  obtain ⟨layout, palette, hlayout, hwritten⟩ := written_of_ofDiagram hdocument
  obtain ⟨_, -, hpresents⟩ := Layout.ofDiagram_presents hlayout
  obtain ⟨canvas, helements⟩ := elements_of_written hpresents hwritten
  exact ⟨canvas, _, _, _, _, helements⟩

/-- Every diagram that refers to its participants has a document, if the options are not rejected. -/
theorem exists_document (hquarters : ¬ (3 / 4 : α) ≤ 0) (fresh : Twister) {options : Options α}
    (haccepted : ¬ options.Rejected) {diagram : Diagram}
    (hrefers : ∀ name ∈ diagram.content.body.named, name ∈ diagram.names) :
    ∃ document, ofDiagram fresh options diagram = .ok document := by
  obtain ⟨palette, hpalette⟩ := Palette.ofOptions_eq_ok_iff.2 haccepted
  obtain ⟨layout, hlayout⟩ := Layout.ofDiagram_of_listed (Pen.ofOptions options).font.labelSize
    (Spacing.ofOptions options) hrefers
  exact ofDiagram_eq_ok hquarters fresh hlayout hpalette

end SequenceChart.Svg
