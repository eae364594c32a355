import SequenceChart.Proofs.Drawing.Rendering
import SequenceChart.Proofs.Layout.Traced
import SequenceChart.Proofs.Svg.Painted
import SequenceChart.Proofs.Theme.Hex
import SequenceChart.Svg.Document

namespace SequenceChart

section Proper

variable {α : Type} [LE α] [∀ n, OfNat α n]

/-- A call that every surface understands: its strokes have a width, and its text is aligned in one of
    the known ways. -/
def Call.Proper : Call α → Prop
  | .line _ _ _ width _ => ¬ width ≤ 0
  | .arrow _ _ _ width _ _ _ => ¬ width ≤ 0
  | .text _ horizontal vertical _ _ _ =>
    horizontal ∈ [Alignment.start, .center, .finish] ∧ vertical ∈ [Alignment.start, .center, .finish]
  | _ => True

variable {σ ε : Type}

/-- A surface that answers every proper call, and knows how many times its origin has been moved
    without being moved back. Only if it has not been moved, it need not answer a pop. -/
def Surface.Obliging (surface : Surface α σ ε) (depth : σ → Nat) : Prop :=
  ∀ call state, call.Proper → (call.kind = .pop → 0 < depth state) →
    ∃ after, (surface call).run state = (.ok (), after) ∧
      (depth after : Int) = depth state + call.descent

variable {surface : Surface α σ ε} {depth : σ → Nat}

theorem Surface.Obliging.unmoved (hobliging : surface.Obliging depth) {call : Call α}
    (hproper : call.Proper) (hunmoved : call.moves = false) (state : σ) :
    ∃ after, (surface call).run state = (.ok (), after) ∧ depth after = depth state := by
  obtain ⟨after, hcall, hdepth⟩ := hobliging call state hproper
    fun hpop => absurd hpop (Call.kind_of_unmoved hunmoved).2
  have hdescent : call.descent = 0 := by simpa [Call.moves] using hunmoved
  exact ⟨after, hcall, by omega⟩

theorem Surface.Obliging.answers (hobliging : surface.Obliging depth) {calls : List (Call α)}
    (hcalls : ∀ call ∈ calls, call.Proper ∧ call.moves = false) (start : σ) :
    ∃ after, surface.Answers start calls after ∧ depth after = depth start := by
  induction calls generalizing start with
  | nil => exact ⟨start, rfl, rfl⟩
  | cons call rest ih =>
    obtain ⟨⟨hproper, hunmoved⟩, hrest⟩ := List.forall_mem_cons.1 hcalls
    obtain ⟨middle, hcall, hdepth⟩ := hobliging.unmoved hproper hunmoved start
    obtain ⟨after, hanswers, hafter⟩ := ih hrest middle
    exact ⟨after, ⟨middle, hcall, hanswers⟩, hafter.trans hdepth⟩

/-- An obliging surface performs every drawing of proper calls that moves the origin in scopes only,
    and its origin is where it was. -/
theorem Surface.Obliging.run (hobliging : surface.Obliging depth) {drawing : Drawing α}
    (hflat : drawing.Flat) (hproper : ∀ call ∈ drawing.calls, call.Proper) (start : σ) :
    ∃ after, surface.Answers start drawing.calls after ∧ depth after = depth start := by
  induction drawing generalizing start with
  | done => exact ⟨start, rfl, rfl⟩
  | call c rest ih =>
    obtain ⟨hunmoved, hflat⟩ := hflat
    obtain ⟨hcall, hrest⟩ := List.forall_mem_cons.1 hproper
    obtain ⟨middle, hanswer, hdepth⟩ := hobliging.unmoved hcall hunmoved start
    obtain ⟨after, hanswers, hafter⟩ := ih hflat hrest middle
    exact ⟨after, ⟨middle, hanswer, hanswers⟩, hafter.trans hdepth⟩
  | within dx dy body rest _ ih =>
    obtain ⟨hunmoved, hflat⟩ := hflat
    simp only [Drawing.calls, List.cons_append, List.forall_mem_cons, List.forall_mem_append] at hproper
    obtain ⟨-, hbody, -, hrest⟩ := hproper
    obtain ⟨inside, hpush, hdeeper⟩ := hobliging (.push dx dy) start trivial
      fun hpush => by cases hpush
    obtain ⟨ended, hdrawn, hended⟩ := hobliging.answers
      (fun call hcall => ⟨hbody call hcall, hunmoved call hcall⟩) inside
    have hpushed : depth inside = depth start + 1 := by
      simp only [Call.descent] at hdeeper
      omega
    obtain ⟨outside, hpop, hleft⟩ := hobliging .pop ended trivial fun _ => by omega
    obtain ⟨after, hanswers, hafter⟩ := ih hflat hrest outside
    refine ⟨after, ?_, ?_⟩
    · rw [Drawing.calls, List.cons_append]
      exact ⟨inside, hpush, Surface.answers_append.2 ⟨ended, hdrawn, outside, hpop, hanswers⟩⟩
    · simp only [Call.descent] at hleft
      omega

end Proper

namespace Drawing

variable {α : Type} [Sub α] [Div α] [LE α] [∀ n, OfNat α n]

theorem proper_ofDivider (hwidth : ¬ (strokeWidth : α) ≤ 0) (palette : Palette α)
    (fragment : FragmentBox α) (divider : Divider α) :
    ∀ c ∈ (ofDivider palette fragment divider).calls, c.Proper := by
  simp only [ofDivider, calls_ofCalls, List.forall_mem_cons]
  refine ⟨hwidth, ?_⟩
  split <;> simp [Call.Proper]

variable [Add α] [LT α] [DecidableLT α]

theorem proper_ofFragment (hwidth : ¬ (strokeWidth : α) ≤ 0) (measure : String → Size α)
    (palette : Palette α) (fragment : FragmentBox α) :
    ∀ c ∈ (ofFragment measure palette fragment).calls, c.Proper := by
  have hdividers := forall_calls_forAll (proper_ofDivider hwidth palette fragment) fragment.dividers
  simp only [ofFragment, calls, calls_append, calls_ofCalls, List.cons_append, List.nil_append,
    List.forall_mem_cons, List.forall_mem_append]
  refine ⟨trivial, trivial, trivial, trivial, trivial, ?_, hdividers, trivial, List.forall_mem_nil _⟩
  simp [Call.Proper]

theorem proper_ofSignal (hwidth : ¬ (strokeWidth : α) ≤ 0) (palette : Palette α)
    (signal : SignalRow α) : ∀ c ∈ (ofSignal palette signal).calls, c.Proper := by
  have hsegment (dashed hasHead : Bool) (start stop : Point α) :
      (segment palette dashed hasHead start stop).Proper := by
    rw [segment]
    split <;> exact hwidth
  have hlabel : (signalLabel palette signal).Proper := by
    simp only [signalLabel]
    split <;> simp [Call.Proper]
  simp only [ofSignal, calls_ofCalls, List.forall_mem_append]
  constructor
  · simp only [signalLines]
    split <;> simp [hsegment]
  · split <;> simp [hlabel]

/-- In the drawing of a layout all lines are as wide as the strokes, and all texts are aligned in a
    known way. -/
theorem proper_ofLayout (hwidth : ¬ (strokeWidth : α) ≤ 0) (measure : String → Size α)
    (palette : Palette α) (layout : Layout α) :
    ∀ c ∈ (ofLayout measure palette layout).calls, c.Proper := by
  simp only [ofLayout, calls_append, List.forall_mem_append]
  refine ⟨?_, ?_, ?_, ?_, ?_, ?_⟩
  · exact forall_calls_forAll (fun title => by simp [ofTitle, calls_ofCalls, Call.Proper]) _
  · exact forall_calls_forAll (proper_ofFragment hwidth measure palette) _
  · exact forall_calls_forAll (fun line => by simpa [ofLifeline, calls_ofCalls, Call.Proper]) _
  · exact forall_calls_forAll (fun bar => by simp [ofActivation, calls_ofCalls, Call.Proper]) _
  · exact forall_calls_forAll (proper_ofSignal hwidth palette) _
  · refine forall_calls_forAll (fun participant => ?_) _
    simp [ofParticipant, calls, calls_ofCalls, Call.Proper]

end Drawing

namespace Svg

variable {α : Type} [LE α] [DecidableLE α] [∀ n, OfNat α n]

theorem Canvas.refusal?_of_proper {depth : Nat} {call : Call α} (hproper : call.Proper)
    (hpop : call.kind = .pop → 0 < depth) : Canvas.refusal? depth call = none := by
  cases call with
  | line dashed start stop width color => exact if_neg hproper
  | arrow dashed start stop width color headLength headWidth => exact if_neg hproper
  | text text horizontal vertical corner size color =>
    obtain ⟨hhorizontal, -⟩ := hproper
    simp only [List.mem_cons, List.not_mem_nil, or_false] at hhorizontal
    obtain rfl | rfl | rfl := hhorizontal <;> rfl
  | pop => exact if_neg (Nat.pos_iff_ne_zero.1 (hpop rfl))
  | rectangle | fill | measure | push => rfl

variable [Add α] [Sub α] [Mul α] [Div α] [LT α] [DecidableLT α] [BEq α] [Coordinate α]

/-- A canvas answers every proper call, and counts its open groups. -/
theorem Canvas.surface_obliging (pen : Pen α) : (Canvas.surface pen).Obliging Canvas.depth := by
  intro call canvas hproper hpop
  have hgranted := Canvas.refusal?_of_proper hproper hpop
  refine ⟨canvas.painted pen call, ?_, Canvas.painted_depth pen hgranted⟩
  rw [Canvas.surface_run, hgranted]

end Svg

section Colors

variable {α : Type} [Div α] [∀ n, OfNat α n] [Coordinate α]

/-- The colours that the options give, if any. -/
def Options.colors (options : Options α) : List (Option String) :=
  [options.background, options.foreground, options.muted, options.line, options.accent,
    options.surface, options.border]

theorem Options.not_rejected_of_hex {options : Options α}
    (htheme : ∀ name ∈ options.theme, Colors.themes.lookup name ≠ none)
    (hcolors : ∀ given ∈ options.colors, ∀ text ∈ nonempty? given, Color.IsHex text) :
    ¬ options.Rejected := by
  rintro (⟨name, hname, hunknown⟩ | ⟨given, hgiven, text, htext, hunreadable⟩)
  · exact htheme name hname hunknown
  · exact hunreadable (hcolors given hgiven text htext).readable

end Colors

variable {α : Type} [Add α] [Sub α] [Div α] [LT α] [DecidableLT α] [∀ n, OfNat α n]

section Proper

variable [LE α]

theorem Diagram.proper_rendering (hwidth : ¬ (Drawing.strokeWidth : α) ≤ 0)
    (measure : String → Size α) (palette : Palette α) (layout : Layout α) (diagram : Diagram) :
    ∀ c ∈ (diagram.rendering measure palette layout).calls, c.Proper := by
  have hquestions : ∀ c ∈ (diagram.questions : List (Call α)), c.Proper := by
    simp [questions, Call.Proper]
  rw [rendering, Drawing.calls_append, Drawing.calls_ofCalls]
  exact List.forall_mem_append.2 ⟨hquestions, Drawing.proper_ofLayout hwidth measure palette layout⟩

variable [Mul α] [Coordinate α]

/-- On an obliging surface a diagram with a layout and a palette is rendered to its end. -/
theorem Diagram.render_of_obliging (hwidth : ¬ (Drawing.strokeWidth : α) ≤ 0)
    {measure : String → Size α} {options : Options α} {diagram : Diagram} {layout : Layout α}
    (hlayout : Layout.ofDiagram measure (Spacing.ofOptions options) diagram = .ok layout)
    {palette : Palette α} (hpalette : Palette.ofOptions options = .ok palette) {σ ε : Type}
    {surface : Surface α σ ε} {depth : σ → Nat} (hobliging : surface.Obliging depth) (start : σ) :
    ∃ after, (diagram.render surface measure options).run start = (.ok layout, after) ∧
      depth after = depth start := by
  obtain ⟨after, hanswers, hdepth⟩ := hobliging.run (flat_rendering measure palette layout diagram)
    (proper_rendering hwidth measure palette layout diagram) start
  refine ⟨after, ?_, hdepth⟩
  rw [render_run hlayout hpalette, Drawing.run_eq_ok_iff.2 hanswers]

end Proper

variable [Mul α]

/-- The passes over a diagram that lay it out find what each of them needs of the others: every
    participant has a column, every row the size of its label and both of its ends, and every box the
    header that was measured for it. -/
structure Layout.Coherent (layout : Layout α) (columns : Columns α) (measure : String → Size α)
    (diagram : Diagram) : Prop where
  widths : columns.widths.length = diagram.participants.length
  centers : columns.centers.length = diagram.participants.length
  sizes : ∀ row ∈ layout.signals, (diagram.signals.map (Columns.signalSize measure))[row.index]? =
    some ⟨row.labelWidth, row.labelHeight⟩
  ends : ∀ row ∈ layout.signals,
    (∃ box ∈ layout.participants, box.name = row.source ∧ box.x = row.startX) ∧
      ∃ box ∈ layout.participants, box.name = row.target ∧ box.x = row.endX
  headers : layout.fragments.map (fun box => Label.header box.kind box.label) =
    diagram.content.body.headers

theorem Layout.ofDiagram_coherent {measure : String → Size α} {spacing : Spacing α}
    {diagram : Diagram} {layout : Layout α} (hlayout : ofDiagram measure spacing diagram = .ok layout) :
    ∃ columns, Columns.ofDiagram measure spacing diagram = .ok columns ∧
      layout.Coherent columns measure diagram := by
  obtain ⟨columns, hcolumns, hpresents⟩ := ofDiagram_presents hlayout
  obtain ⟨hwidths, hcenters⟩ := Columns.ofDiagram_lengths hcolumns
  exact ⟨columns, hcolumns, hwidths, hcenters, hpresents.size, hpresents.ends, hpresents.headers⟩

variable [Coordinate α]

/-- A diagram that can be laid out, and whose options make a palette, has a document. -/
theorem Svg.ofDiagram_eq_ok [LE α] [DecidableLE α] [BEq α] (hwidth : ¬ (Drawing.strokeWidth : α) ≤ 0)
    (fresh : Twister) {options : Options α} {diagram : Diagram} {layout : Layout α}
    (hlayout : Layout.ofDiagram (Svg.Pen.ofOptions options).font.labelSize (Spacing.ofOptions options)
      diagram = .ok layout) {palette : Palette α} (hpalette : Palette.ofOptions options = .ok palette) :
    ∃ document, Svg.ofDiagram fresh options diagram = .ok document := by
  obtain ⟨canvas, hcanvas, hdepth⟩ := Diagram.render_of_obliging hwidth hlayout hpalette
    (Canvas.surface_obliging (Pen.ofOptions options)) (Canvas.empty (.seeded fresh options.seed))
  have hclosed : canvas.depth = 0 := hdepth
  simp only [ofDiagram, StateT.run, ExceptT.run] at hcanvas ⊢
  simp only [hcanvas, hpalette, Canvas.document, hclosed, if_true, Except.mapError]
  exact ⟨_, rfl⟩

/-- A diagram whose signals and activations refer to participants is laid out, rendered and written
    without an error, whatever the sizes of its labels are, if the theme is known and the colours are
    written as documented. A surface need not answer more than proper calls, and its origin is moved
    back in the end. Of the numbers it is only asked that three quarters are positive. -/
theorem Diagram.drawn_of_listed [LE α] [DecidableLE α] [BEq α] (hquarters : ¬ (3 / 4 : α) ≤ 0)
    (measure : String → Size α) (fresh : Twister) {options : Options α} {diagram : Diagram}
    (hrefers : ∀ name ∈ diagram.content.body.named, name ∈ diagram.names)
    (htheme : ∀ name ∈ options.theme, Colors.themes.lookup name ≠ none)
    (hcolors : ∀ given ∈ options.colors, ∀ text ∈ nonempty? given, Color.IsHex text) :
    (∃ layout columns,
      Layout.ofDiagram measure (Spacing.ofOptions options) diagram = .ok layout ∧
        Columns.ofDiagram measure (Spacing.ofOptions options) diagram = .ok columns ∧
        layout.Coherent columns measure diagram ∧
        ∀ {σ ε : Type} (surface : Surface α σ ε) (depth : σ → Nat), surface.Obliging depth →
          ∀ start, ∃ after,
            (diagram.render surface measure options).run start = (.ok layout, after) ∧
              depth after = depth start) ∧
      ∃ document, Svg.ofDiagram fresh options diagram = .ok document := by
  have hwidth : ¬ (Drawing.strokeWidth : α) ≤ 0 := hquarters
  obtain ⟨palette, hpalette⟩ :=
    Palette.ofOptions_eq_ok_iff.2 (Options.not_rejected_of_hex htheme hcolors)
  constructor
  · obtain ⟨layout, hlayout⟩ := Layout.ofDiagram_of_listed measure (Spacing.ofOptions options) hrefers
    obtain ⟨columns, hcolumns, hcoherent⟩ := Layout.ofDiagram_coherent hlayout
    refine ⟨layout, columns, hlayout, hcolumns, hcoherent, fun surface depth hobliging start => ?_⟩
    exact render_of_obliging hwidth hlayout hpalette hobliging start
  · obtain ⟨layout, hlayout⟩ := Layout.ofDiagram_of_listed (Svg.Pen.ofOptions options).font.labelSize
      (Spacing.ofOptions options) hrefers
    exact Svg.ofDiagram_eq_ok hwidth fresh hlayout hpalette

theorem Diagram.drawn_of_listed_hollow :
    let inner : Body := .fragment "loop" .none (.activation "B" false .empty)
    let content : Body :=
      .signal ⟨"A", "B", "hi\\nthere", .dashed, true⟩
        (.fragment "alt" (.cons "<&>" inner (.cons "" .empty .none)) .empty)
    let diagram : Diagram :=
      { title := some "T", participants := [⟨"A", "A"⟩, ⟨"B", "B"⟩], content := ⟨"", content⟩ }
    let options : Options ℚ :=
      { theme := some "nord", accent := some "#0aF", surface := some "fefeff80", border := some "" }
    ¬ (3 / 4 : ℚ) ≤ 0 ∧ (∀ name ∈ diagram.content.body.named, name ∈ diagram.names) ∧
      (∀ name ∈ options.theme, Colors.themes.lookup name ≠ none) ∧
      (∀ given ∈ options.colors, ∀ text ∈ nonempty? given, Color.IsHex text) ∧
      (∃ layout columns,
        Layout.ofDiagram (evenSize 7 15) (Spacing.ofOptions options) diagram = .ok layout ∧
          Columns.ofDiagram (evenSize 7 15) (Spacing.ofOptions options) diagram = .ok columns ∧
          layout.Coherent columns (evenSize 7 15) diagram ∧
          ∀ {σ ε : Type} (surface : Surface ℚ σ ε) (depth : σ → Nat), surface.Obliging depth →
            ∀ start, ∃ after,
              (diagram.render surface (evenSize 7 15) options).run start = (.ok layout, after) ∧
                depth after = depth start) ∧
      ∃ document, Svg.ofDiagram (.ofSeed 7) options diagram = .ok document := by
  intro inner content diagram options
  have hquarters : ¬ (3 / 4 : ℚ) ≤ 0 := by norm_num
  have hrefers : ∀ name ∈ diagram.content.body.named, name ∈ diagram.names := by decide
  have htheme : ∀ name ∈ options.theme, Colors.themes.lookup name ≠ none := by
    simp [options, Colors.themes]
  have haccent : Color.IsHex "#0aF" := ⟨['0', 'a', 'F'], .inr rfl, by decide, by simp [Text.IsHexDigit]⟩
  have hsurface : Color.IsHex "fefeff80" :=
    ⟨"fefeff80".toList, .inl rfl, by decide, by simp [Text.IsHexDigit]⟩
  have hcolors : ∀ given ∈ options.colors, ∀ text ∈ nonempty? given, Color.IsHex text := by
    simp [options, Options.colors, nonempty?, haccent, hsurface]
  exact ⟨hquarters, hrefers, htheme, hcolors,
    drawn_of_listed hquarters _ _ hrefers htheme hcolors⟩

end SequenceChart
