import SequenceChart.Proofs.Svg.Elements

namespace SequenceChart.Svg.Canvas

/-- A document with the tags of its root, of its style block and of what has been drawn, where groups
    are nested. The family stands in the style block as it is, with the tags that are in it. -/
structure Grouped (family : String) (drawn : List Xml.Tag) (text : String) : Prop where
  tags : Xml.tags text = .opening "svg" :: .opening "style" :: (Xml.tags family ++
    .closing "style" :: (drawn ++ [.closing "svg"]))
  drawn : Xml.Nested "g" drawn
  whole : Xml.Nested "g" (Xml.tags text) ↔ Xml.Nested "g" (Xml.tags family)

theorem grouped_elements {α : Type} [LT α] [DecidableLT α] [∀ n, OfNat α n] [Coordinate α]
    (hplain : ∀ x : α, Xml.Plain (Coordinate.text x)) {canvas : Canvas α}
    (hnested : Nested canvas.shapes) (family : String) (width height : α) (background : Color α)
    (transparent : Bool) :
    Grouped family (canvas.shapes.flatMap Shape.tags)
      (joinLines (canvas.elements family width height background transparent)) := by
  have htags := tags_elements hplain canvas family width height background transparent
  have hdrawn := Shape.nested_tags hnested
  refine ⟨htags, hdrawn, ?_⟩
  have hback : Xml.Nested "g"
      (.closing "style" :: (canvas.shapes.flatMap Shape.tags ++ [.closing "svg"])) :=
    .other (by decide) (hdrawn.append (.other (by decide) .nil))
  have hroot : (Xml.Tag.opening "svg").name ≠ "g" := by decide
  have hstyle : (Xml.Tag.opening "style").name ≠ "g" := by decide
  rw [htags, Xml.nested_cons_iff hroot, Xml.nested_cons_iff hstyle, Xml.nested_append_iff hback]

variable {α : Type} [Add α] [Sub α] [Mul α] [Div α] [LT α] [DecidableLT α] [LE α] [DecidableLE α]
  [BEq α] [∀ n, OfNat α n] [Coordinate α]

/-- A canvas that keeps its books while it is asked for things. Its depth is the number of pushes less
    that of pops that were not refused. It refuses pops exactly when no group is open, strokes exactly
    when they have no width, and its document exactly when a group is open. What it refuses changes
    nothing. The groups of its document are nested, except for what is in the family. -/
structure Balanced (pen : Pen α) (start : Canvas α) (requests : List (Request α)) (canvas : Canvas α) :
    Prop where
  depth : canvas.depth + ((start.granted pen requests).map Call.kind).count .pop =
    (requests.map Request.kind?).count (some .push)
  pop : ∀ error, canvas.answer pen (.call .pop) = .error error ↔
    canvas.depth = 0 ∧ error = .popWithoutPush
  stroke : ∀ call width, call.strokeWidth? = some width → ∀ error,
    canvas.answer pen (.call call) = .error error ↔ width ≤ 0 ∧ error = .strokeWidth width
  unchanged : ∀ request error, canvas.answer pen request = .error error →
    canvas.next pen request = canvas
  closed : ∀ width height background transparent error,
    canvas.answer pen (.document width height background transparent) = .error error ↔
      canvas.depth ≠ 0 ∧ error = .stillPushed canvas.depth
  document : ∀ width height background transparent text,
    canvas.answer pen (.document width height background transparent) = .ok (some text) →
      text = joinLines (canvas.elements pen.family width height background transparent) ∧
        Grouped pen.family (canvas.shapes.flatMap Shape.tags) text

theorem answer_stroke_eq_error_iff (pen : Pen α) (canvas : Canvas α) {call : Call α} {width : α}
    (hcall : call.strokeWidth? = some width) (error : CanvasError α) :
    canvas.answer pen (.call call) = .error error ↔ width ≤ 0 ∧ error = .strokeWidth width := by
  have hrefusal : refusal? canvas.depth call =
      if width ≤ 0 then some (.strokeWidth width) else none := by
    cases call <;> cases hcall <;> rfl
  rw [answer_call_eq_error_iff, hrefusal]
  by_cases hwidth : width ≤ 0
  · rw [if_pos hwidth, Option.some_inj, eq_comm, and_iff_right hwidth]
  · rw [if_neg hwidth]
    exact iff_of_false nofun fun herror => hwidth herror.1

/-- A canvas keeps its books, whatever has been asked of it. -/
theorem afterRequests_balanced (hplain : ∀ x : α, Xml.Plain (Coordinate.text x)) (pen : Pen α)
    (random : Twister) (requests : List (Request α)) :
    Balanced pen (empty random) requests ((empty random).afterRequests pen requests) where
  depth := (afterRequests_depth pen (empty random) requests).trans (Nat.zero_add _)
  pop error := by
    rw [answer_call_eq_error_iff, refusal?]
    split <;> simp_all [eq_comm]
  stroke call width hcall := answer_stroke_eq_error_iff pen _ hcall
  unchanged request error := next_of_answer_eq_error
  closed width height background transparent error := answer_document_eq_error_iff
  document width height background transparent text htext := by
    generalize hcanvas : (empty random).afterRequests pen requests = canvas at htext ⊢
    have htracks : canvas.Tracks :=
      hcanvas ▸ afterRequests_keeps (fun _ request h => h.next request) (tracks_empty random) requests
    by_cases hclosed : canvas.depth = 0
    · rw [answer, Canvas.document, if_pos hclosed] at htext
      obtain rfl : joinLines (canvas.elements pen.family width height background transparent) = text :=
        Option.some.inj (Except.ok.inj htext)
      rw [Tracks, hclosed] at htracks
      exact ⟨rfl, grouped_elements hplain htracks.closed ..⟩
    · rw [answer, Canvas.document, if_neg hclosed] at htext
      cases htext

/-- Half of these requests are refused. -/
theorem afterRequests_balanced_refused :
    let black : Color ℚ := ⟨0, 0, 0, 1⟩
    let pen : Pen ℚ := ⟨"Inter", Font.standard, 0⟩
    let start := empty (Twister.ofSeed 7)
    let line (width : ℚ) : Call ℚ := .line true ⟨0, 0⟩ ⟨9, 9⟩ width black
    let requests : List (Request ℚ) := [.call .pop, .call (.push 1 2), .call (line 0),
      .document 9 9 black false, .call (line 1), .call .pop]
    let canvas := start.afterRequests pen requests
    (∀ x : ℚ, Xml.Plain (Coordinate.text x)) ∧
      start.granted pen requests = [.push 1 2, line 1, .pop] ∧ canvas.depth = 0 ∧
      canvas.answer pen (.call .pop) = .error .popWithoutPush ∧
      canvas.next pen (.call .pop) = canvas ∧
      canvas.answer pen (.call (line 0)) = .error (.strokeWidth 0) ∧
      ∃ text, canvas.answer pen (.document 9 9 black false) = .ok (some text) ∧
        Xml.tags text = [.opening "svg", .opening "style", .closing "style", .opening "g",
          .opening "line", .closing "g", .closing "svg"] ∧
        Xml.Nested "g" (Xml.tags text) := by
  intro black pen start line requests canvas
  have hbalanced := afterRequests_balanced Coordinate.plain_text_rat pen (Twister.ofSeed 7) requests
  have hgranted : start.granted pen requests = [.push 1 2, line 1, .pop] := rfl
  have hclosed : canvas.depth = 0 := by
    have hdepth := hbalanced.depth
    rw [hgranted] at hdepth
    exact Nat.add_right_cancel hdepth
  have hrefused := (hbalanced.pop .popWithoutPush).2 ⟨hclosed, rfl⟩
  have hstroke := (hbalanced.stroke (line 0) 0 rfl _).2 ⟨le_rfl, rfl⟩
  obtain ⟨text, htext⟩ :
      ∃ text, canvas.answer pen (.document 9 9 black false) = .ok (some text) := by
    rw [answer, Canvas.document, if_pos hclosed]
    exact ⟨_, rfl⟩
  obtain ⟨-, hgrouped⟩ := hbalanced.document 9 9 black false text htext
  have hfamily : Xml.tags pen.family = [] := by decide
  refine ⟨Coordinate.plain_text_rat, hgranted, hclosed, hrefused, hbalanced.unchanged _ _ hrefused,
    hstroke, text, htext, ?_, hgrouped.whole.2 (hfamily ▸ .nil)⟩
  rw [hgrouped.tags, hfamily]
  rfl

/-- A family that ends the style block and begins a group. -/
theorem answer_document_unnested :
    let pen : Pen ℚ := ⟨"</style><g>", Font.standard, 0⟩
    ∃ text, (empty (Twister.ofSeed 7)).answer pen (.document 9 9 ⟨255, 255, 255, 1⟩ false) =
        .ok (some text) ∧
      ¬ Xml.Nested "g" (Xml.tags text) := by
  intro pen
  refine ⟨_, rfl, fun hnested => ?_⟩
  have hempty : Nested (empty (Twister.ofSeed 7) : Canvas ℚ).shapes := .nil
  have hgrouped := grouped_elements Coordinate.plain_text_rat hempty pen.family 9 9
    ⟨255, 255, 255, 1⟩ false
  exact absurd (hgrouped.whole.1 hnested) (by decide)

end SequenceChart.Svg.Canvas
