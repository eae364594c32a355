import SequenceChart.Proofs.Drawing.Scopes
import SequenceChart.Proofs.Svg.Requests
import SequenceChart.Proofs.Svg.Strokes

namespace SequenceChart

/-- The width of the stroke that a call makes, if it chooses one. -/
def Call.strokeWidth? {α : Type} : Call α → Option α
  | .line _ _ _ width _ => some width
  | .arrow _ _ _ width _ _ _ => some width
  | _ => none

theorem Call.descent_eq {α : Type} (call : Call α) :
    call.descent + [call.kind].count .pop = [call.kind].count .push := by
  cases call with
  | line dashed | arrow dashed => cases dashed <;> rfl
  | _ => rfl

namespace Svg

/-- A shape that is neither end of a group. -/
def Shape.IsPlain {α : Type} : Shape α → Prop
  | openGroup .. | closeGroup => False
  | _ => True

section Nested

variable {α : Type}

/-- Shapes in which every group that is opened is closed, and no other one. -/
inductive Nested : List (Shape α) → Prop where
  | nil : Nested []
  | plain {shape : Shape α} {rest : List (Shape α)} (hplain : shape.IsPlain) (hrest : Nested rest) :
      Nested (shape :: rest)
  | group {inner rest : List (Shape α)} (dx dy : α) (hinner : Nested inner) (hrest : Nested rest) :
      Nested (.openGroup dx dy :: inner ++ .closeGroup :: rest)

/-- Shapes in which a number of groups that are opened are not closed. -/
inductive Unclosed : Nat → List (Shape α) → Prop where
  | nested {shapes : List (Shape α)} (hnested : Nested shapes) : Unclosed 0 shapes
  | opened {depth : Nat} {front back : List (Shape α)} (dx dy : α) (hfront : Unclosed depth front)
      (hback : Nested back) : Unclosed (depth + 1) (front ++ .openGroup dx dy :: back)

variable {depth : Nat} {front back shapes : List (Shape α)}

theorem Nested.append (hfront : Nested front) (hback : Nested back) : Nested (front ++ back) := by
  induction hfront with
  | nil => exact hback
  | plain hplain _ ih => exact .plain hplain ih
  | group dx dy hinner _ _ ih =>
    rw [List.append_assoc]
    exact .group dx dy hinner ih

theorem Nested.of_plain (hplain : ∀ shape ∈ shapes, shape.IsPlain) : Nested shapes := by
  induction shapes with
  | nil => exact .nil
  | cons shape rest ih =>
    obtain ⟨hshape, hrest⟩ := List.forall_mem_cons.1 hplain
    exact .plain hshape (ih hrest)

theorem Unclosed.append (hfront : Unclosed depth front) (hback : Nested back) :
    Unclosed depth (front ++ back) := by
  cases hfront with
  | nested hnested => exact .nested (hnested.append hback)
  | opened dx dy hfront hinner =>
    rw [List.append_assoc]
    exact .opened dx dy hfront (hinner.append hback)

theorem Unclosed.opening (hfront : Unclosed depth front) (dx dy : α) :
    Unclosed (depth + 1) (front ++ [.openGroup dx dy]) :=
  .opened dx dy hfront .nil

theorem Unclosed.closing (hfront : Unclosed (depth + 1) front) :
    Unclosed depth (front ++ [.closeGroup]) := by
  cases hfront with
  | opened dx dy hfront hinner =>
    rw [List.append_assoc]
    exact hfront.append (.group dx dy hinner .nil)

theorem Unclosed.closed (hshapes : Unclosed 0 shapes) : Nested shapes := by
  cases hshapes with
  | nested hnested => exact hnested

end Nested

namespace Canvas

/-- The shapes of a canvas leave as many groups open as the canvas counts. -/
def Tracks {α : Type} (canvas : Canvas α) : Prop :=
  Unclosed canvas.depth canvas.shapes

theorem tracks_empty {α : Type} (random : Twister) : (empty random : Canvas α).Tracks :=
  .nested .nil

variable {α : Type} [Add α] [Mul α] [Div α] [∀ n, OfNat α n]

theorem plain_lineShapes (font : Font α) (color : Color α) (anchor : Anchor) (x top : α) (i : Nat)
    (lines : List String) : ∀ shape ∈ lineShapes font color anchor x top i lines, shape.IsPlain := by
  induction lines generalizing i with
  | nil => exact List.forall_mem_nil _
  | cons line rest ih => exact List.forall_mem_cons.2 ⟨trivial, ih (i + 1)⟩

variable [Sub α] [LT α] [DecidableLT α]

theorem plain_strokeShape (jitter : α) (stroke : Stroke α) (random : Twister) :
    (strokeShape jitter stroke random).1.IsPlain :=
  strokeShape_keeps (fun _ => trivial) (fun _ _ _ => trivial) ..

theorem plain_strokeShapes (jitter : α) (strokes : List (Stroke α)) (random : Twister) :
    ∀ shape ∈ (strokeShapes jitter strokes random).1, shape.IsPlain :=
  strokeShapes_keep (fun _ => trivial) (fun _ _ _ => trivial) jitter strokes random

variable [BEq α] [Coordinate α]

theorem plain_shapesOf (pen : Pen α) {call : Call α} (hunmoved : call.moves = false)
    (random : Twister) :
    ∀ shape ∈ (shapesOf pen call random).1, shape.IsPlain := by
  cases call with
  | rectangle corner size color =>
    by_cases hjitter : 0 < pen.jitter
    · simp only [shapesOf, outlineShapes, if_pos hjitter]
      exact plain_strokeShapes _ _ _
    · simp only [shapesOf, outlineShapes, if_neg hjitter]
      exact List.forall_mem_singleton.2 trivial
  | fill corner size color => exact List.forall_mem_singleton.2 trivial
  | line dashed start stop width color => exact plain_strokeShapes _ _ _
  | arrow dashed start stop width color headLength headWidth =>
    simp only [shapesOf, arrowShapes]
    split
    · exact List.forall_mem_nil _
    · exact List.forall_mem_cons.2 ⟨plain_strokeShape _ _ _, List.forall_mem_singleton.2 trivial⟩
  | text label horizontal vertical corner size color =>
    cases hanchor : anchorOf (α := α) horizontal with
    | error error =>
      simp only [shapesOf, textShapes, hanchor]
      exact List.forall_mem_nil _
    | ok anchor =>
      simp only [shapesOf, textShapes, hanchor]
      exact plain_lineShapes _ _ _ _ _ _ _
  | measure label => exact List.forall_mem_nil _
  | push | pop => simp [Call.moves, Call.descent] at hunmoved

theorem Tracks.unmoved {pen : Pen α} {canvas : Canvas α} (htracks : canvas.Tracks) {call : Call α}
    (hunmoved : call.moves = false) :
    (canvas.painted pen call).Tracks := by
  have hdescent : call.descent = 0 := by simpa [Call.moves] using hunmoved
  have hdepth : (canvas.painted pen call).depth = canvas.depth := by simp [painted, hdescent]
  rw [Tracks, hdepth]
  exact Unclosed.append htracks (.of_plain (plain_shapesOf pen hunmoved canvas.random))

variable [LE α] [DecidableLE α] (pen : Pen α)

/-- A push opens a group, which only a pop that is not refused makes up for. -/
theorem next_depth (canvas : Canvas α) (request : Request α) :
    (canvas.next pen request).depth +
        ((canvas.granted? pen request).toList.map Call.kind).count .pop =
      canvas.depth + [request.kind?].count (some .push) := by
  cases request with
  | document => rfl
  | call c =>
    have hkind : [Request.kind? (.call c)].count (some .push) = [c.kind].count .push := by
      simp [Request.kind?, List.count_singleton]
    cases hrefusal : refusal? canvas.depth c with
    | some error =>
      obtain ⟨-, hgranted, hnext⟩ := answer_of_refusal pen hrefusal
      have hpush : [c.kind].count .push = 0 := by
        cases c with
        | push dx dy => cases hrefusal
        | line dashed | arrow dashed => cases dashed <;> rfl
        | _ => rfl
      rw [hgranted, hnext, hkind, hpush]
      rfl
    | none =>
      obtain ⟨-, hgranted, hnext⟩ := answer_of_granted pen hrefusal
      have hpainted := painted_depth pen hrefusal
      have hdescent := c.descent_eq
      rw [hgranted, hnext, hkind, Option.toList_some, List.map_singleton]
      omega

theorem afterRequests_depth (canvas : Canvas α) (requests : List (Request α)) :
    (canvas.afterRequests pen requests).depth +
        ((canvas.granted pen requests).map Call.kind).count .pop =
      canvas.depth + (requests.map Request.kind?).count (some .push) := by
  induction requests generalizing canvas with
  | nil => rfl
  | cons request rest ih =>
    have hnext := canvas.next_depth pen request
    have hrest : (canvas.afterRequests pen (request :: rest)).depth + _ = _ := ih (canvas.next pen request)
    have hpushes : ((request :: rest).map Request.kind?).count (some .push) =
        [request.kind?].count (some .push) + (rest.map Request.kind?).count (some .push) := by
      rw [← List.count_append]
      rfl
    rw [granted, List.map_append, List.count_append, hpushes]
    omega

variable {pen} {canvas : Canvas α}

theorem Tracks.painted (htracks : canvas.Tracks) {call : Call α}
    (hgranted : refusal? canvas.depth call = none) : (canvas.painted pen call).Tracks := by
  have hdepth := painted_depth pen hgranted
  cases call with
  | push dx dy => exact Unclosed.opening htracks dx dy
  | pop =>
    -- The pop is not refused, so there is an open group for it to close.
    have hopen : canvas.depth = (canvas.painted pen .pop).depth + 1 := by
      simp only [Call.descent] at hdepth
      omega
    rw [Tracks, hopen] at htracks
    exact htracks.closing
  | _ => exact htracks.unmoved rfl

theorem Tracks.next (htracks : canvas.Tracks) (request : Request α) :
    (canvas.next pen request).Tracks := by
  cases request with
  | document => exact htracks
  | call c =>
    cases hrefusal : refusal? canvas.depth c with
    | some error =>
      rw [(answer_of_refusal pen hrefusal).2.2]
      exact htracks
    | none =>
      rw [(answer_of_granted pen hrefusal).2.2]
      exact htracks.painted hrefusal

end Canvas

end Svg

end SequenceChart
