import SequenceChart.Proofs.Svg.Alike
import SequenceChart.Proofs.Svg.Requests
import SequenceChart.Proofs.Svg.Strokes

namespace SequenceChart.Svg

namespace Shape

/-- Whether a shape is a curve. -/
def isCurve {α : Type} : Shape α → Bool
  | curve .. => true
  | _ => false

theorem Follows.isCurve {α : Type} {stroke : Stroke α} {shape : Shape α} (hfollows : Follows stroke shape) :
    shape.isCurve = true := by
  obtain ⟨first, second, rfl⟩ := hfollows
  rfl

variable {α : Type} [Add α] [∀ n, OfNat α n]

/-- The shapes that a shape becomes if strokes sway. -/
inductive Sways : Shape α → List (Shape α) → Prop where
  | filled (corner : Point α) (size : Size α) (color : Color α) :
    Sways (.filled corner size color) [.filled corner size color]
  | triangle (tip left right : Point α) (color : Color α) :
    Sways (.triangle tip left right color) [.triangle tip left right color]
  | text (content : String) (point : Point α) (anchor : Anchor) (font : Font α) (color : Color α) :
    Sways (.text content point anchor font color) [.text content point anchor font color]
  | openGroup (dx dy : α) : Sways (.openGroup dx dy) [.openGroup dx dy]
  | closeGroup : Sways .closeGroup [.closeGroup]
  | line {stroke : Stroke α} {curve : Shape α} (hcurve : Follows stroke curve) :
    Sways (.line stroke) [curve]
  | outline {corner : Point α} {size : Size α} {color : Color α} {top right bottom left : Shape α}
      (htop : Follows ⟨corner, corner.offset size.width 0, 1, color, false⟩ top)
      (hright : Follows
        ⟨corner.offset size.width 0, corner.offset size.width size.height, 1, color, false⟩ right)
      (hbottom : Follows
        ⟨corner.offset size.width size.height, corner.offset 0 size.height, 1, color, false⟩ bottom)
      (hleft : Follows ⟨corner.offset 0 size.height, corner, 1, color, false⟩ left) :
    Sways (.outline corner size color) [top, right, bottom, left]

end Shape

variable {α : Type} [Add α] [Div α] [∀ n, OfNat α n]

/-- Shapes with straight strokes against the same ones with strokes that sway, where every curve has
    taken six random numbers. -/
structure Swaying (before : Twister) (straight swayed : List (Shape α)) (after : Twister) : Prop where
  shapes : ∃ parts, List.Forall₂ Shape.Sways straight parts ∧ swayed = parts.flatten
  random : after = (Twister.draw α)^[6 * swayed.countP Shape.isCurve] before

namespace Swaying

variable {before middle after : Twister} {straight rest swayed others : List (Shape α)}

theorem nil (before : Twister) : Swaying (α := α) before [] [] before :=
  ⟨⟨[], .nil, rfl⟩, rfl⟩

theorem append (hfirst : Swaying before straight swayed middle)
    (hrest : Swaying middle rest others after) :
    Swaying before (straight ++ rest) (swayed ++ others) after := by
  obtain ⟨⟨parts, hparts, rfl⟩, rfl⟩ := hfirst
  obtain ⟨⟨pieces, hpieces, rfl⟩, rfl⟩ := hrest
  refine ⟨⟨parts ++ pieces, List.rel_append hparts hpieces, List.flatten_append.symm⟩, ?_⟩
  -- The second part draws from the generator that the first one has left.
  rw [List.countP_append, Nat.mul_add, Nat.add_comm, Function.iterate_add_apply]

/-- A shape that is no stroke stays as it is, and takes no random number. -/
theorem same {shape : Shape α} (hsways : shape.Sways [shape]) (hcurve : shape.isCurve = false)
    (before : Twister) : Swaying before [shape] [shape] before := by
  refine ⟨⟨[[shape]], .cons hsways .nil, rfl⟩, ?_⟩
  rw [List.countP_singleton, hcurve]
  rfl

variable [Mul α]

theorem of_lines (font : Font α) (color : Color α) (anchor : Anchor) (x top : α) (i : Nat)
    (lines : List String) (before : Twister) :
    Swaying before (lineShapes font color anchor x top i lines)
      (lineShapes font color anchor x top i lines) before := by
  induction lines generalizing i with
  | nil => exact .nil before
  | cons line rest ih => exact append (same (.text ..) rfl before) (ih (i + 1))

variable [Sub α] [LT α] [DecidableLT α] {jitter : α} (hjitter : 0 < jitter)

include hjitter

theorem of_stroke (stroke : Stroke α) (before : Twister) :
    Swaying before [.line stroke] [(strokeShape jitter stroke before).1]
      (strokeShape jitter stroke before).2 := by
  obtain ⟨hshape, hdraws⟩ := strokeShape_swayed hjitter stroke before
  refine ⟨⟨[[_]], .cons (.line hshape) .nil, rfl⟩, ?_⟩
  rw [hdraws, List.countP_singleton, if_pos hshape.isCurve]

/-- The sides of a box become four curves. -/
theorem of_sides (corner : Point α) (size : Size α) (color : Color α) (before : Twister) :
    Swaying before [.outline corner size color]
      (strokeShapes jitter (sides corner size color) before).1
      (strokeShapes jitter (sides corner size color) before).2 := by
  obtain ⟨hshapes, hdraws⟩ := strokeShapes_swayed hjitter (sides corner size color) before
  rw [hdraws]
  generalize (strokeShapes jitter (sides corner size color) before).1 = curves at hshapes ⊢
  obtain _ | ⟨htop, _ | ⟨hright, _ | ⟨hbottom, _ | ⟨hleft, _ | _⟩⟩⟩⟩ := hshapes
  refine ⟨⟨[[_, _, _, _]], .cons (.outline htop hright hbottom hleft) .nil, rfl⟩, ?_⟩
  simp [htop.isCurve, hright.isCurve, hbottom.isCurve, hleft.isCurve, sides]

end Swaying

namespace Canvas

variable [Sub α] [Mul α] [LT α] [DecidableLT α] [BEq α] [Coordinate α]

theorem shapesOf_swaying {pen : Pen α} (hjitter : 0 < pen.jitter) {flat : α} (hflat : ¬ 0 < flat)
    (call : Call α) (before other : Twister) :
    Swaying before (shapesOf { pen with jitter := flat } call other).1 (shapesOf pen call before).1
      (shapesOf pen call before).2 := by
  cases call with
  | rectangle corner size color =>
    simp only [shapesOf, outlineShapes, if_neg hflat, if_pos hjitter]
    exact .of_sides hjitter corner size color before
  | fill corner size color => exact .same (.filled ..) rfl before
  | line dashed start stop width color =>
    simp only [shapesOf, strokeShapes_straight hflat]
    exact .of_stroke hjitter _ before
  | arrow dashed start stop width color headLength headWidth =>
    simp only [shapesOf, arrowShapes, strokeShape_straight hflat]
    split
    · exact .nil before
    · exact .append (.of_stroke hjitter _ before) (.same (.triangle ..) rfl _)
  | text label horizontal vertical corner size color =>
    cases hanchor : anchorOf (α := α) horizontal with
    | error error =>
      simp only [shapesOf, textShapes, hanchor]
      exact .nil before
    | ok anchor =>
      simp only [shapesOf, textShapes, hanchor]
      exact .of_lines ..
  | measure label => exact .nil before
  | push dx dy => exact .same (.openGroup ..) rfl before
  | pop => exact .same .closeGroup rfl before

/-- Canvases that have been drawn on in the same way since they had the same source of jitter, one
    with straight strokes and one with strokes that sway. -/
structure Sways (random : Twister) (straight swayed : Canvas α) : Prop where
  shapes : Swaying random straight.shapes swayed.shapes swayed.random
  depth : swayed.depth = straight.depth
  unused : straight.random = random

section Surface

variable [LE α] [DecidableLE α]

variable {pen : Pen α} (hjitter : 0 < pen.jitter) {flat : α} (hflat : ¬ 0 < flat)
  {random : Twister}

include hjitter hflat

theorem surface_sways (call : Call α) {straight swayed : Canvas α}
    (hsways : Sways random straight swayed) :
    Related (Sways random) ((surface { pen with jitter := flat } call).run straight)
      ((surface pen call).run swayed) := by
  rw [surface_run, surface_run, hsways.depth]
  cases refusal? straight.depth call with
  | some error => exact ⟨rfl, hsways⟩
  | none =>
    refine ⟨rfl, ?_, ?_, ?_⟩
    · exact hsways.shapes.append (shapesOf_swaying hjitter hflat call swayed.random straight.random)
    · simp only [painted, hsways.depth]
    · obtain ⟨shapes, hstraight⟩ : ∃ shapes, shapesOf { pen with jitter := flat } call = pure shapes :=
        shapesOf_straight hflat call
      rw [painted, hstraight]
      exact hsways.unused

variable {straight swayed : Canvas α}

theorem next_sways (hsways : Sways random straight swayed) (request : Request α) :
    Sways random (straight.next { pen with jitter := flat } request) (swayed.next pen request) := by
  cases request with
  | call c => exact (surface_sways hjitter hflat c hsways).2
  | document => exact hsways

theorem afterRequests_sways (hsways : Sways random straight swayed) (requests : List (Request α)) :
    Sways random (straight.afterRequests { pen with jitter := flat } requests)
      (swayed.afterRequests pen requests) := by
  induction requests generalizing straight swayed with
  | nil => exact hsways
  | cons request rest ih => exact ih (next_sways hjitter hflat hsways request)

theorem render_sways (hsways : Sways random straight swayed) (measure : String → Size α)
    (options : Options α) (diagram : Diagram) :
    Related (Sways random)
      ((diagram.render (surface { pen with jitter := flat }) measure options).run straight)
      ((diagram.render (surface pen) measure options).run swayed) := by
  -- The pen is not asked for sizes, so both runs find the same layout and the same palette.
  rw [render_run, render_run]
  cases Layout.ofDiagram measure (Spacing.ofOptions options) diagram with
  | error error => exact ⟨rfl, hsways⟩
  | ok layout =>
    cases Palette.ofOptions options with
    | error error => exact ⟨rfl, hsways⟩
    | ok palette =>
      have hdrawn := Drawing.run_related (surface_sways hjitter hflat)
        (Drawing.ofLayout measure palette layout) hsways
      dsimp only
      generalize ((Drawing.ofLayout measure palette layout).run
        (surface { pen with jitter := flat })).run straight = first at hdrawn ⊢
      generalize ((Drawing.ofLayout measure palette layout).run (surface pen)).run swayed = second
        at hdrawn ⊢
      obtain ⟨result, after⟩ := first
      obtain ⟨_, other⟩ := second
      obtain ⟨rfl, hafter⟩ := hdrawn
      cases result with
      | error error => exact ⟨rfl, hafter⟩
      | ok _ => exact ⟨rfl, hafter⟩

/-- Jitter changes the shapes of strokes only, whatever is asked of a canvas, the answers to calls
    included, and so also when a diagram is rendered. -/
theorem jitter_sways (random : Twister) :
    (∀ requests : List (Request α),
      let straight := (empty random).afterRequests { pen with jitter := flat } requests
      let swayed := (empty random).afterRequests pen requests
      Sways random straight swayed ∧ ∀ call : Call α,
        straight.answer { pen with jitter := flat } (.call call) = swayed.answer pen (.call call)) ∧
    ∀ (measure : String → Size α) (options : Options α) (diagram : Diagram),
      Related (Sways random)
        ((diagram.render (surface { pen with jitter := flat }) measure options).run (empty random))
        ((diagram.render (surface pen) measure options).run (empty random)) := by
  have hempty : Sways random (empty random) (empty random : Canvas α) := ⟨.nil random, rfl, rfl⟩
  refine ⟨fun requests => ?_, render_sways hjitter hflat hempty⟩
  have hsways := afterRequests_sways hjitter hflat hempty requests
  refine ⟨hsways, fun call => ?_⟩
  rw [answer, answer, (surface_sways hjitter hflat call hsways).1]

end Surface

theorem jitter_sways_rectangle :
    let black : Color ℚ := ⟨0, 0, 0, 1⟩
    let pen : Pen ℚ := ⟨"Inter", Font.standard, 2⟩
    let line (width : ℚ) : Call ℚ := .line true ⟨0, 0⟩ ⟨9, 9⟩ width black
    let requests : List (Request ℚ) := [.call (.push 1 2), .call (.rectangle ⟨0, 0⟩ ⟨4, 3⟩ black),
      .call (line 0), .call (line 1), .call .pop, .call .pop]
    let start := empty (Twister.ofSeed 3)
    let straight := start.afterRequests { pen with jitter := 0 } requests
    let swayed := start.afterRequests pen requests
    let lines : List (Shape ℚ) := [.openGroup 1 2, .outline ⟨0, 0⟩ ⟨4, 3⟩ black,
      .line ⟨⟨0, 0⟩, ⟨9, 9⟩, 1, black, true⟩, .closeGroup]
    0 < pen.jitter ∧ ¬ (0 : ℚ) < 0 ∧ straight.shapes = lines ∧
      Swaying (Twister.ofSeed 3) lines swayed.shapes swayed.random ∧
      swayed.answer pen (.call (line 0)) = .error (.strokeWidth 0) := by
  intro black pen line requests start straight swayed lines
  have hjitter : 0 < pen.jitter := by norm_num [pen]
  have hflat : ¬ (0 : ℚ) < 0 := lt_irrefl 0
  obtain ⟨hsways, hanswers⟩ := (jitter_sways hjitter hflat (Twister.ofSeed 3)).1 requests
  have hlines : straight.shapes = lines := rfl
  have hrefused : straight.answer { pen with jitter := 0 } (.call (line 0)) = .error (.strokeWidth 0) :=
    rfl
  exact ⟨hjitter, hflat, hlines, hlines ▸ hsways.shapes, (hanswers (line 0)).symm.trans hrefused⟩

end Canvas

end SequenceChart.Svg
