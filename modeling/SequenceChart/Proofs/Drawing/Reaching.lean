import SequenceChart.Proofs.Drawing.Issued
import SequenceChart.Proofs.Layout.Apart
import SequenceChart.Proofs.Svg.Heads

namespace SequenceChart

open Distance

theorem exists_forall₂_of_prefix {A B : Type} {R : A → B → Prop} {all : List A} {whole part : List B}
    (hall : List.Forall₂ R all whole) (hpart : part <+: whole) :
    ∃ first, first <+: all ∧ List.Forall₂ R first part ∧ (part = whole → first = all) := by
  refine ⟨all.take part.length, List.take_prefix _ _, ?_, fun hwhole => ?_⟩
  · rw [List.prefix_iff_eq_take.1 hpart, List.length_take, min_eq_left hpart.length_le]
    exact List.forall₂_take _ hall
  · rw [hwhole]
    exact List.take_of_length_le hall.length_eq.le

/-- A call that draws the arrow of a signal. The arrow is level and at least as long as a loop is wide,
    and longer than two boxes can be close if the signal leads to another participant. -/
def Signal.Reaches (signal : Signal) : Call ℚ → Prop
  | .arrow dashed start stop _ _ headLength _ =>
    (dashed = true ↔ signal.style = .dashed) ∧ headLength = 8 ∧ stop.y = start.y ∧
      30 ≤ |stop.x - start.x| ∧ (signal.source ≠ signal.target → 120 ≤ |stop.x - start.x|)
  | _ => False

theorem Signal.Reaches.pointed {signal : Signal} {call : Call ℚ} (hreaches : signal.Reaches call) :
    call.Pointed := by
  cases call with
  | arrow dashed start stop width color headLength headWidth =>
    obtain ⟨-, rfl, hlevel, hlong, -⟩ := hreaches
    exact ⟨hlevel, by norm_num, by linarith⟩
  | _ => exact hreaches.elim

theorem Call.pointed_of_arrow? {call : Call ℚ} (harrow : call.arrow? = none) : call.Pointed := by
  cases call with
  | arrow dashed start stop width color headLength headWidth => cases harrow
  | _ => trivial

/-- A row that shows a signal, and reaches far if the signal leads to another participant. -/
def Signal.Stretches (signal : Signal) (row : SignalRow ℚ) : Prop :=
  (∃ grid : Grid ℚ, grid.Displays signal row) ∧
    (signal.source ≠ signal.target → 120 ≤ |row.endX - row.startX|)

theorem Columns.Spacious.stretches {columns : Columns ℚ} {measure : String → Size ℚ}
    {spacing : Spacing ℚ} {diagram : Diagram}
    (hspacious : columns.Spacious measure spacing.participantGap diagram) {signal : Signal}
    {row : SignalRow ℚ}
    (hdisplays : Grid.Displays ⟨diagram.participants, columns, spacing, measure⟩ signal row) :
    signal.Stretches row := by
  refine ⟨⟨_, hdisplays⟩, fun hdistinct => ?_⟩
  obtain ⟨source, hsource, hstart⟩ := hdisplays.startX
  obtain ⟨target, htarget, hend⟩ := hdisplays.endX
  have hfrom := column?_of_columnOf hsource
  have hto := column?_of_columnOf htarget
  have hcolumns : source ≠ target := by
    rintro rfl
    exact hdistinct (Option.some.inj ((name_of_column? hfrom).symm.trans (name_of_column? hto)))
  rw [hstart, hend, Grid.center, Grid.center, le_abs]
  obtain hright | hleft := lt_or_gt_of_ne hcolumns
  · have hapart := hspacious.centers_add_le hright (column?_lt hto)
    simp only [boxWidth, boxClearance] at hapart
    exact .inl (by linarith)
  · have hapart := hspacious.centers_add_le hleft (column?_lt hfrom)
    simp only [boxWidth, boxClearance] at hapart
    exact .inr (by linarith)

/-- In a layout every row stretches as its signal does. -/
theorem Layout.ofDiagram_stretches (measure : String → Size ℚ) (spacing : Spacing ℚ) {diagram : Diagram}
    (hrefers : ∀ name ∈ diagram.content.body.named, name ∈ diagram.names) :
    ∃ layout, ofDiagram measure spacing diagram = .ok layout ∧
      List.Forall₂ Signal.Stretches diagram.signals layout.signals := by
  by_cases hparticipants : diagram.participants = []
  · obtain ⟨layout, hlayout⟩ := ofDiagram_of_listed measure spacing hrefers
    obtain ⟨_, -, hpresents⟩ := ofDiagram_presents hlayout
    have hnone : diagram.signals = [] := by
      refine List.eq_nil_iff_forall_not_mem.2 fun signal hsignal => ?_
      have hlisted := (Diagram.signals_listed hrefers signal hsignal).1
      simp [Diagram.names, hparticipants] at hlisted
    have hshown := hpresents.shown
    rw [hnone] at hshown ⊢
    refine ⟨layout, hlayout, ?_⟩
    rw [List.forall₂_nil_left_iff.1 hshown]
    exact .nil
  · obtain ⟨layout, columns, hlayout, hcolumns, -, -, -, hspacious⟩ :=
      ofDiagram_onColumns measure spacing hparticipants hrefers
    obtain ⟨others, hothers, hpresents⟩ := ofDiagram_presents hlayout
    obtain rfl : others = columns := Except.ok.inj (hothers.symm.trans hcolumns)
    exact ⟨layout, hlayout, hpresents.shown.imp fun _ _ hdisplays => hspacious.stretches hdisplays⟩

namespace Drawing

variable (palette : Palette ℚ)

/-- The loop of a signal to its source ends with the arrow, which is as long as the loop is wide. -/
theorem reaches_signalLines {signal : Signal} {row : SignalRow ℚ} (hstretches : signal.Stretches row) :
    List.Forall₂ Signal.Reaches ([signal].filter Signal.hasHead)
      ((signalLines palette row).filter (·.arrow?.isSome)) := by
  obtain ⟨⟨grid, hdisplays⟩, hfar⟩ := hstretches
  have hline (start stop : Point ℚ) :
      (segment palette (row.style = .dashed) false start stop).arrow? = none := rfl
  have harrow (start stop : Point ℚ) :
      (segment palette (row.style = .dashed) true start stop).arrow?.isSome = true := rfl
  have hstyle : decide (row.style = .dashed) = true ↔ signal.style = .dashed := by
    rw [hdisplays.style, decide_eq_true_iff]
  cases hhead : signal.hasHead with
  | false =>
    have hnone : (signalLines palette row).filter (·.arrow?.isSome) = [] := by
      simp only [signalLines, hdisplays.hasHead, hhead]
      split <;> simp [hline]
    rw [hnone, List.filter_cons_of_neg (by simp [hhead])]
    exact .nil
  | true =>
    rw [List.filter_cons_of_pos hhead, List.filter_nil]
    simp only [signalLines, hdisplays.hasHead, hhead, hdisplays.isSelf, Signal.isSelf, decide_eq_true_iff]
    split
    · next hself =>
      simp only [List.filter_cons, hline, harrow, Option.isSome_none, Bool.false_eq_true, if_false, if_true,
        List.filter_nil]
      have hlong : (30 : ℚ) ≤ |row.startX - (row.startX + loopWidth)| := by
        rw [sub_add_cancel_left, abs_neg]
        norm_num
      exact .cons ⟨hstyle, rfl, rfl, hlong, fun hdistinct => absurd hself hdistinct⟩ .nil
    · next hdistinct =>
      simp only [List.filter_cons, harrow, if_true, List.filter_nil]
      have hlong := hfar hdistinct
      exact .cons ⟨hstyle, rfl, rfl, by linarith, fun _ => hlong⟩ .nil

/-- All arrows of a layout whose rows stretch as signals do belong to those signals. -/
theorem reaches_ofLayout (measure : String → Size ℚ) {layout : Layout ℚ} {signals : List Signal}
    (hstretches : List.Forall₂ Signal.Stretches signals layout.signals) :
    List.Forall₂ Signal.Reaches (signals.filter Signal.hasHead)
      ((ofLayout measure palette layout).calls.filter (·.arrow?.isSome)) := by
  rw [arrowCalls_ofLayout]
  generalize layout.signals = rows at hstretches
  induction hstretches with
  | nil => exact .nil
  | @cons signal row signals rows hrow _ ih =>
    rw [List.flatMap_cons, ← List.singleton_append, List.filter_append]
    exact List.rel_append (reaches_signalLines palette hrow) ih

end Drawing

namespace Diagram

theorem arrowCalls_questions (diagram : Diagram) :
    (diagram.questions : List (Call ℚ)).filter (·.arrow?.isSome) = [] := by
  simp [questions, Call.arrow?]

theorem rendering_reaches (measure : String → Size ℚ) (palette : Palette ℚ) {diagram : Diagram}
    {layout : Layout ℚ} (hstretches : List.Forall₂ Signal.Stretches diagram.signals layout.signals) :
    List.Forall₂ Signal.Reaches (diagram.signals.filter Signal.hasHead)
      ((diagram.rendering measure palette layout).calls.filter (·.arrow?.isSome)) := by
  rw [rendering, Drawing.calls_append, Drawing.calls_ofCalls, List.filter_append, arrowCalls_questions,
    List.nil_append]
  exact Drawing.reaches_ofLayout palette measure hstretches

/-- All calls of a rendering that draw arrows draw ones with room for their heads. -/
theorem rendering_pointed (measure : String → Size ℚ) (palette : Palette ℚ) {diagram : Diagram}
    {layout : Layout ℚ} (hstretches : List.Forall₂ Signal.Stretches diagram.signals layout.signals) :
    ∀ call ∈ (diagram.rendering measure palette layout).calls, call.Pointed := by
  have hreaches := rendering_reaches measure palette hstretches
  have harrows := ((List.forall₂_and_left _ _).1 (hreaches.flip.imp
    fun call (signal : Signal) (hcall : signal.Reaches call) => ⟨hcall.pointed, hcall⟩)).1
  intro call hcall
  cases harrow : call.arrow? with
  | none => exact Call.pointed_of_arrow? harrow
  | some kind => exact harrows call (List.mem_filter.2 ⟨hcall, by rw [harrow]; rfl⟩)

/-- Every arrow that a rendering asks for belongs to a signal with a head and is long enough for its
    head, whatever the distances and the sizes of labels are, and wherever the surface fails. So a canvas
    adds one head for each of them, the base of which lies between both ends. -/
theorem render_reaches (measure : String → Size ℚ) (options : Options ℚ) {diagram : Diagram}
    (hrefers : ∀ name ∈ diagram.content.body.named, name ∈ diagram.names) :
    (∀ {σ ε : Type} (surface : Surface ℚ σ ε) (start : σ), ∃ result after issued signals,
      (diagram.render surface.noted measure options).run (start, []) = (result, after, issued) ∧
        signals <+: diagram.signals.filter Signal.hasHead ∧
        List.Forall₂ Signal.Reaches signals (issued.filter (·.arrow?.isSome)) ∧
        (result.isOk = true → signals = diagram.signals.filter Signal.hasHead)) ∧
    (¬ options.Rejected → ∀ (pen : Svg.Pen ℚ) (canvas : Svg.Canvas ℚ), ∃ layout after issued shapes,
      (diagram.render (Svg.Canvas.surface pen).noted measure options).run (canvas, []) =
          (.ok layout, after, issued) ∧
        after.shapes = canvas.shapes ++ shapes ∧
        List.Forall₂ Svg.Shape.HeadOf (issued.filter (·.arrow?.isSome))
          (shapes.filter Svg.Shape.isTriangle)) := by
  obtain ⟨layout, hlayout, hstretches⟩ :=
    Layout.ofDiagram_stretches measure (Spacing.ofOptions options) hrefers
  refine ⟨fun {σ ε} surface start => ?_, fun haccepted pen canvas => ?_⟩
  · cases hpalette : Palette.ofOptions options with
    | error problem =>
      obtain ⟨error, after, issued, hrun, hbegins⟩ := render_issues_rejected surface
        (·.arrow?.isSome) rfl hlayout hpalette start []
      rw [arrowCalls_questions, List.prefix_nil] at hbegins
      refine ⟨_, after, issued, [], hrun, List.nil_prefix, ?_, nofun⟩
      rw [hbegins]
      exact .nil
    | ok palette =>
      obtain ⟨result, after, issued, hrun, hbegins, hok⟩ := render_issues surface
        (·.arrow?.isSome) rfl hlayout hpalette start []
      obtain ⟨signals, hsignals, hreaches, hall⟩ :=
        exists_forall₂_of_prefix (rendering_reaches measure palette hstretches) hbegins
      exact ⟨result, after, issued, signals, hrun, hsignals, hreaches, fun hdone => hall (by rw [hok hdone])⟩
  · obtain ⟨palette, hpalette⟩ := Palette.ofOptions_eq_ok_iff.2 haccepted
    have hwidth : ¬ (Drawing.strokeWidth : ℚ) ≤ 0 := by norm_num [Drawing.strokeWidth]
    obtain ⟨after, hanswers, -⟩ := (Svg.Canvas.surface_obliging pen).run
      (flat_rendering measure palette layout diagram)
      (proper_rendering hwidth measure palette layout diagram) canvas
    have hpointed := rendering_pointed measure palette hstretches
    obtain ⟨shapes, hshapes, hheads⟩ := Svg.Canvas.heads_of_answers hpointed hanswers
    refine ⟨layout, after, _, shapes, ?_, hshapes, hheads⟩
    rw [render_run hlayout hpalette, Drawing.run_eq_ok_iff.2 (Surface.noted_answers hanswers [])]
    rfl

theorem render_reaches_crowded :
    let body : Body := .signal ⟨"B", "A", "back", .dashed, true⟩
      (.signal ⟨"A", "B", "", .solid, false⟩ (.signal ⟨"A", "A", "again", .solid, true⟩ .empty))
    let diagram : Diagram := { participants := [⟨"A", "A"⟩, ⟨"B", "B"⟩], content := ⟨"", body⟩ }
    let options : Options ℚ := { participantGap := some (-500), padding := some (-40) }
    (∀ name ∈ diagram.content.body.named, name ∈ diagram.names) ∧ ¬ options.Rejected ∧
      (∀ {σ ε : Type} (surface : Surface ℚ σ ε) (start : σ), ∃ result after issued signals,
        (diagram.render surface.noted (evenSize (-7) 15) options).run (start, []) =
            (result, after, issued) ∧
          signals <+: diagram.signals.filter Signal.hasHead ∧
          List.Forall₂ Signal.Reaches signals (issued.filter (·.arrow?.isSome)) ∧
          (result.isOk = true → signals = diagram.signals.filter Signal.hasHead)) ∧
      ∀ (pen : Svg.Pen ℚ) (canvas : Svg.Canvas ℚ), ∃ layout after issued shapes,
        (diagram.render (Svg.Canvas.surface pen).noted (evenSize (-7) 15) options).run (canvas, []) =
            (.ok layout, after, issued) ∧
          after.shapes = canvas.shapes ++ shapes ∧
          List.Forall₂ Svg.Shape.HeadOf (issued.filter (·.arrow?.isSome))
            (shapes.filter Svg.Shape.isTriangle) := by
  intro body diagram options
  have hrefers : ∀ name ∈ diagram.content.body.named, name ∈ diagram.names := by decide
  have haccepted : ¬ options.Rejected := by simp [options, Options.Rejected, nonempty?]
  have hrender := render_reaches (evenSize (-7) 15) options hrefers
  exact ⟨hrefers, haccepted, hrender.1, hrender.2 haccepted⟩

end Diagram

end SequenceChart
