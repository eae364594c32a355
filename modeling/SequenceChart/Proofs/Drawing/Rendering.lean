import SequenceChart.Drawing.Render
import SequenceChart.Font
import SequenceChart.Proofs.Drawing.Scopes
import SequenceChart.Proofs.Layout.Listed
import SequenceChart.Proofs.Theme.Rejected

namespace SequenceChart

namespace Drawing

section Calls

variable {α : Type}

theorem calls_append (first second : Drawing α) :
    (first ++ second).calls = first.calls ++ second.calls := by
  induction first with
  | done => rfl
  | call c rest ih => exact congrArg (c :: ·) ih
  | within dx dy body rest _ ih =>
    change .push dx dy :: body.calls ++ .pop :: (rest ++ second).calls = _
    simp [ih, calls]

theorem calls_ofCalls (cs : List (Call α)) : (ofCalls cs).calls = cs := by
  induction cs with
  | nil => rfl
  | cons c rest ih => exact congrArg (c :: ·) ih

theorem Flat.append {first second : Drawing α} (hfirst : first.Flat) (hsecond : second.Flat) :
    (first ++ second).Flat := by
  induction first with
  | done => exact hsecond
  | call c rest ih => exact ⟨hfirst.1, ih hfirst.2⟩
  | within dx dy body rest _ ih => exact ⟨hfirst.1, ih hfirst.2⟩

theorem flat_forAll {β : Type} {draw : β → Drawing α} (hdraw : ∀ item, (draw item).Flat)
    (items : List β) : (forAll draw items).Flat := by
  induction items with
  | nil => trivial
  | cons item rest ih => exact (hdraw item).append ih

theorem calls_forAll {β : Type} (draw : β → Drawing α) (items : List β) :
    (forAll draw items).calls = items.flatMap fun item => (draw item).calls := by
  induction items with
  | nil => rfl
  | cons item rest ih =>
    change (draw item ++ forAll draw rest).calls = _
    rw [calls_append, ih, List.flatMap_cons]

theorem forall_calls_forAll {β : Type} {P : Call α → Prop} {draw : β → Drawing α}
    (hdraw : ∀ item, ∀ c ∈ (draw item).calls, P c) (items : List β) :
    ∀ c ∈ (forAll draw items).calls, P c := by
  intro c hc
  rw [calls_forAll] at hc
  obtain ⟨item, -, hc⟩ := List.mem_flatMap.1 hc
  exact hdraw item c hc

theorem unmoved_ofCalls {cs : List (Call α)} (hcalls : ∀ c ∈ cs, c.moves = false) :
    ∀ c ∈ (ofCalls cs).calls, c.moves = false := by
  rwa [calls_ofCalls]

end Calls

variable {α : Type} [Add α] [Div α] [∀ n, OfNat α n]

theorem unmoved_signalLines (palette : Palette α) (signal : SignalRow α) :
    ∀ c ∈ signalLines palette signal, c.moves = false := by
  have hsegment (dashed hasHead : Bool) (start stop : Point α) :
      (segment palette dashed hasHead start stop).moves = false := by
    rw [segment]
    split <;> rfl
  simp only [signalLines]
  split <;> simp [hsegment]

variable [Sub α]

omit [Add α] in
theorem unmoved_ofDivider (palette : Palette α) (fragment : FragmentBox α) (divider : Divider α) :
    ∀ c ∈ (ofDivider palette fragment divider).calls, c.moves = false := by
  refine unmoved_ofCalls fun c hc => ?_
  obtain rfl | hc := List.mem_cons.1 hc
  · rfl
  · split at hc
    · cases hc
    · rw [List.mem_singleton.1 hc]
      rfl

variable [LT α] [DecidableLT α]

theorem flat_ofSignal (palette : Palette α) (signal : SignalRow α) :
    (ofSignal palette signal).Flat := by
  refine flat_of_unmoved (unmoved_ofCalls ?_)
  refine List.forall_mem_append.2 ⟨unmoved_signalLines palette signal, fun c hc => ?_⟩
  split at hc
  · cases hc
  · rw [List.mem_singleton.1 hc, signalLabel]
    split <;> rfl

theorem flat_ofFragment (measure : String → Size α) (palette : Palette α)
    (fragment : FragmentBox α) : (ofFragment measure palette fragment).Flat := by
  refine ⟨rfl, ?_, trivial⟩
  rw [calls_append]
  refine List.forall_mem_append.2 ⟨unmoved_ofCalls (by simp [Call.moves, Call.descent]), ?_⟩
  exact forall_calls_forAll (unmoved_ofDivider palette fragment) fragment.dividers

/-- In the drawing of a layout no scope lies in another one, and nothing else moves the origin. -/
theorem flat_ofLayout (measure : String → Size α) (palette : Palette α) (layout : Layout α) :
    (ofLayout measure palette layout).Flat := by
  have htitle (title : TitleBox α) : (ofTitle palette title).Flat := ⟨rfl, trivial⟩
  have hlifeline (lifeline : Lifeline α) : (ofLifeline palette lifeline).Flat := ⟨rfl, trivial⟩
  have hactivation (bar : ActivationBar α) : (ofActivation palette bar).Flat := ⟨rfl, rfl, trivial⟩
  have hparticipant (participant : ParticipantBox α) : (ofParticipant palette participant).Flat :=
    ⟨unmoved_ofCalls (by simp [Call.moves, Call.descent]), trivial⟩
  apply (flat_forAll htitle _).append
  apply (flat_forAll (flat_ofFragment measure palette) _).append
  apply (flat_forAll hlifeline _).append
  apply (flat_forAll hactivation _).append
  apply (flat_forAll (flat_ofSignal palette) _).append
  exact flat_forAll hparticipant _

end Drawing

theorem run_adapt {σ E F A : Type} (f : E → F) (x : ExceptT E (StateM σ) A) (start : σ) :
    (x.adapt f).run start =
      match x.run start with
      | (.error error, after) => (.error (f error), after)
      | (.ok a, after) => (.ok a, after) := by
  rcases hx : x start with ⟨_ | _, after⟩
  all_goals
    simp only [ExceptT.adapt, ExceptT.run, ExceptT.mk, Functor.map, StateT.map, hx]
    rfl

theorem run_mk_pure {σ E A : Type} (x : Except E A) (start : σ) :
    (ExceptT.mk (pure x : StateM σ (Except E A))).run start = (x, start) :=
  rfl

namespace Diagram

variable {α : Type} [Add α] [Sub α] [Div α] [LT α] [DecidableLT α] [∀ n, OfNat α n]

/-- The questions for the sizes of a diagram's texts. -/
def questions (diagram : Diagram) : List (Call α) :=
  diagram.measuredTexts.map .measure

/-- All that a surface is asked and told when a diagram with a layout and a palette is rendered. -/
def rendering (measure : String → Size α) (palette : Palette α) (layout : Layout α)
    (diagram : Diagram) : Drawing α :=
  Drawing.ofCalls diagram.questions ++ Drawing.ofLayout measure palette layout

theorem flat_rendering (measure : String → Size α) (palette : Palette α) (layout : Layout α)
    (diagram : Diagram) : (diagram.rendering measure palette layout).Flat := by
  have hquestions : ∀ c ∈ (diagram.questions : List (Call α)), c.moves = false := by
    simp [questions, Call.moves, Call.descent]
  apply (Drawing.flat_of_unmoved (Drawing.unmoved_ofCalls hquestions)).append
  exact Drawing.flat_ofLayout measure palette layout

variable [Mul α] [Coordinate α] {σ ε : Type} {surface : Surface α σ ε} {measure : String → Size α}
  {options : Options α} {diagram : Diagram} {layout : Layout α}

theorem render_run_rejected
    (hlayout : Layout.ofDiagram measure (Spacing.ofOptions options) diagram = .ok layout)
    {problem : PaletteError} (hpalette : Palette.ofOptions options = .error problem) {start after : σ}
    (hquestions : surface.Answers start diagram.questions after) :
    (diagram.render surface measure options).run start = (.error (.palette problem), after) := by
  have hmeasured : (surface.measureAll diagram.measuredTexts).run start = (.ok (), after) := by
    rw [Surface.measureAll, Drawing.run_eq_ok_iff, Drawing.calls_ofCalls]
    exact hquestions
  simp only [render, Drawing.run_bind, run_adapt, hmeasured, hlayout, hpalette, run_mk_pure,
    Except.mapError]

theorem render_run
    (hlayout : Layout.ofDiagram measure (Spacing.ofOptions options) diagram = .ok layout)
    {palette : Palette α} (hpalette : Palette.ofOptions options = .ok palette) (start : σ) :
    (diagram.render surface measure options).run start =
      match ((diagram.rendering measure palette layout).run surface).run start with
      | (.error error, after) => (.error (.surface error), after)
      | (.ok _, after) => (.ok layout, after) := by
  rw [rendering, Drawing.run_append]
  simp only [render, Drawing.run_bind, run_adapt, Surface.measureAll, hlayout, hpalette, run_mk_pure,
    Except.mapError, questions]
  rcases ((Drawing.ofCalls (diagram.measuredTexts.map .measure)).run surface).run start with
    ⟨_ | _, middle⟩
  · rfl
  · dsimp only
    rcases ((Drawing.ofLayout measure palette layout).run surface).run middle with ⟨_ | _, after⟩ <;> rfl

/-- On every surface a diagram is rendered by these calls if they are all answered. If another call
    fails than one that moves the origin back, those before it have been completed, the origin is
    moved back if it has been moved, and nothing else happens. -/
structure RendersBy (measure : String → Size α) (options : Options α) (diagram : Diagram)
    (layout : Layout α) (calls : List (Call α)) : Prop where
  complete : ∀ {σ ε : Type} (surface : Surface α σ ε) (start after : σ) returned completed,
    (diagram.render surface.recorded measure options).run (start, []) =
        (.ok returned, after, completed) ↔
      returned = layout ∧ completed = calls ∧ surface.Answers start calls after
  broken : ∀ {σ ε : Type} (surface : Surface α σ ε) {start middle failed after : σ} {error : ε}
      {front broken back}, calls = front ++ broken :: back → broken.kind ≠ .pop →
    surface.Answers start front middle → (surface broken).run middle = (.error error, failed) →
    surface.Answers failed (Call.releases front) after →
      (diagram.render surface.recorded measure options).run (start, []) =
          (.error (.surface error), after, front ++ Call.releases front) ∧
        Call.Balanced (front ++ Call.releases front)

theorem rendersBy_rendering
    (hlayout : Layout.ofDiagram measure (Spacing.ofOptions options) diagram = .ok layout)
    {palette : Palette α} (hpalette : Palette.ofOptions options = .ok palette) :
    RendersBy measure options diagram layout (diagram.rendering measure palette layout).calls := by
  have hflat := flat_rendering measure palette layout diagram
  refine ⟨fun {σ ε} surface start after returned completed => ?_, ?_⟩
  · rw [render_run hlayout hpalette]
    constructor
    · intro hrun
      split at hrun
      · cases hrun
      · next hdrawn =>
        cases hrun
        exact ⟨rfl, (Surface.answers_of_recorded (Drawing.run_eq_ok_iff.1 hdrawn)).symm⟩
    · rintro ⟨rfl, rfl, hanswers⟩
      rw [Drawing.run_eq_ok_iff.2 (Surface.recorded_answers hanswers [])]
      rfl
  · intro σ ε surface start middle failed after error front broken back hcalls hpop hfront hbroken
      hrelease
    refine ⟨?_, Drawing.balanced_releases hflat hcalls⟩
    have hrun := Drawing.run_broken hflat hcalls hpop (Surface.recorded_answers hfront [])
      (Surface.recorded_run_error hbroken _) (Surface.recorded_answers hrelease _)
    rw [render_run hlayout hpalette, hrun]
    rfl

/-- A diagram whose signals and activations refer to participants is rendered by calls that do not
    depend on the surface, unless the options are rejected. Then only sizes are asked for. -/
theorem render_ends_cleanly (measure : String → Size α) (options : Options α) {diagram : Diagram}
    (hrefers : ∀ name ∈ diagram.content.body.named, name ∈ diagram.names) :
    (options.Rejected → ∃ problem, ∀ {σ ε : Type} (surface : Surface α σ ε) {start after : σ},
      surface.Answers start diagram.questions after →
        (diagram.render surface.recorded measure options).run (start, []) =
          (.error (.palette problem), after, diagram.questions)) ∧
    (¬ options.Rejected → ∃ layout palette,
      Layout.ofDiagram measure (Spacing.ofOptions options) diagram = .ok layout ∧
        Palette.ofOptions options = .ok palette ∧
        RendersBy measure options diagram layout (diagram.rendering measure palette layout).calls) := by
  obtain ⟨layout, hlayout⟩ := Layout.ofDiagram_of_listed measure (Spacing.ofOptions options) hrefers
  constructor
  · intro hrejected
    cases hpalette : Palette.ofOptions options with
    | ok palette => exact absurd hrejected (Palette.ofOptions_eq_ok_iff.1 ⟨palette, hpalette⟩)
    | error problem =>
      refine ⟨problem, fun {σ ε} surface {start after} hquestions => ?_⟩
      apply render_run_rejected hlayout hpalette
      exact Surface.recorded_answers hquestions []
  · intro haccepted
    obtain ⟨palette, hpalette⟩ := Palette.ofOptions_eq_ok_iff.2 haccepted
    exact ⟨layout, palette, hlayout, hpalette, rendersBy_rendering hlayout hpalette⟩

theorem render_ends_cleanly_alternatives :
    let operands : Operands :=
      .cons "well" (.signal ⟨"A", "B", "done", .solid, true⟩ .empty) (.cons "ill" .empty .none)
    let diagram : Diagram :=
      { participants := [⟨"A", "A"⟩, ⟨"B", "B"⟩], content := ⟨"", .fragment "alt" operands .empty⟩ }
    (∀ name ∈ diagram.content.body.named, name ∈ diagram.names) ∧
      ({ theme := some "zinc" } : Options ℚ).Rejected ∧ ¬ ({} : Options ℚ).Rejected ∧
      (∃ problem, ∀ {σ ε : Type} (surface : Surface ℚ σ ε) {start after : σ},
        surface.Answers start diagram.questions after →
          (diagram.render surface.recorded (evenSize 7 15) { theme := some "zinc" }).run (start, []) =
            (.error (.palette problem), after, diagram.questions)) ∧
      ∃ layout palette, Layout.ofDiagram (evenSize (7 : ℚ) 15) (Spacing.ofOptions {}) diagram = .ok layout ∧
        Palette.ofOptions {} = .ok palette ∧
        RendersBy (evenSize 7 15) {} diagram layout
          (diagram.rendering (evenSize 7 15) palette layout).calls := by
  intro operands diagram
  have hrefers : ∀ name ∈ diagram.content.body.named, name ∈ diagram.names := by decide
  have hrejected : ({ theme := some "zinc" } : Options ℚ).Rejected := .inl ⟨"zinc", rfl, by decide⟩
  have haccepted : ¬ ({} : Options ℚ).Rejected := by simp [Options.Rejected, nonempty?]
  exact ⟨hrefers, hrejected, haccepted, (render_ends_cleanly _ _ hrefers).1 hrejected,
    (render_ends_cleanly _ _ hrefers).2 haccepted⟩

end Diagram

end SequenceChart
