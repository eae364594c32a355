import Mathlib.Data.List.Forall2
import Mathlib.Logic.Function.Iterate
import SequenceChart.Svg.Canvas

namespace SequenceChart

/-- A generator after one more random number has been drawn from it. -/
def Twister.draw (α : Type) [Div α] [∀ n, OfNat α n] (generator : Twister) : Twister :=
  ((unit : StateM Twister α).run generator).2

namespace Svg

/-- A curve between the ends of a stroke that looks as the stroke does. -/
def Shape.Follows {α : Type} (stroke : Stroke α) (shape : Shape α) : Prop :=
  ∃ first second, shape = .curve stroke first second

variable {α : Type} [Add α] [Sub α] [Mul α] [Div α] [∀ n, OfNat α n]

/-- A control point takes three random numbers. -/
theorem controlPoint_draws (jitter : α) (start stop : Point α) (random : Twister) :
    (controlPoint jitter start stop random).2 = (Twister.draw α)^[3] random :=
  rfl

variable [LT α] [DecidableLT α] {jitter : α}

theorem strokeShape_straight (hjitter : ¬ 0 < jitter) (stroke : Stroke α) :
    strokeShape jitter stroke = pure (.line stroke) :=
  if_neg hjitter

/-- A stroke that sways takes six random numbers. -/
theorem strokeShape_swayed (hjitter : 0 < jitter) (stroke : Stroke α) (random : Twister) :
    Shape.Follows stroke (strokeShape jitter stroke random).1 ∧
      (strokeShape jitter stroke random).2 = (Twister.draw α)^[6] random := by
  let sway := controlPoint jitter stroke.start stroke.stop
  have hrun : strokeShape jitter stroke random =
      (.curve stroke (sway random).1 (sway (sway random).2).1, (sway (sway random).2).2) := by
    rw [strokeShape, if_pos hjitter]
    rfl
  rw [hrun]
  refine ⟨⟨_, _, rfl⟩, ?_⟩
  rw [controlPoint_draws, controlPoint_draws, ← Function.iterate_add_apply]

theorem strokeShapes_swayed (hjitter : 0 < jitter) (strokes : List (Stroke α)) (random : Twister) :
    List.Forall₂ Shape.Follows strokes (strokeShapes jitter strokes random).1 ∧
      (strokeShapes jitter strokes random).2 = (Twister.draw α)^[6 * strokes.length] random := by
  induction strokes generalizing random with
  | nil => exact ⟨.nil, rfl⟩
  | cons stroke rest ih =>
    obtain ⟨hshape, hdraws⟩ := strokeShape_swayed hjitter stroke random
    obtain ⟨hshapes, hrest⟩ := ih (strokeShape jitter stroke random).2
    refine ⟨.cons hshape hshapes, hrest.trans ?_⟩
    rw [hdraws, ← Function.iterate_add_apply, List.length_cons, Nat.mul_succ]

theorem strokeShapes_straight (hjitter : ¬ 0 < jitter) (strokes : List (Stroke α)) :
    strokeShapes jitter strokes = pure (strokes.map .line) := by
  induction strokes with
  | nil => rfl
  | cons stroke rest ih =>
    rw [strokeShapes, strokeShape_straight hjitter, ih]
    rfl

/-- What holds for all lines and curves holds for the shape of a stroke. -/
theorem strokeShape_keeps {P : Shape α → Prop} (hline : ∀ stroke, P (.line stroke))
    (hcurve : ∀ stroke first second, P (.curve stroke first second)) (jitter : α) (stroke : Stroke α)
    (random : Twister) : P (strokeShape jitter stroke random).1 := by
  by_cases hjitter : 0 < jitter
  · obtain ⟨⟨first, second, hshape⟩, -⟩ := strokeShape_swayed hjitter stroke random
    rw [hshape]
    exact hcurve stroke first second
  · rw [strokeShape_straight hjitter]
    exact hline stroke

theorem strokeShapes_keep {P : Shape α → Prop} (hline : ∀ stroke, P (.line stroke))
    (hcurve : ∀ stroke first second, P (.curve stroke first second)) (jitter : α)
    (strokes : List (Stroke α)) (random : Twister) :
    ∀ shape ∈ (strokeShapes jitter strokes random).1, P shape := by
  induction strokes generalizing random with
  | nil => exact List.forall_mem_nil _
  | cons stroke rest ih =>
    exact List.forall_mem_cons.2 ⟨strokeShape_keeps hline hcurve jitter stroke random, ih _⟩

end Svg

end SequenceChart
