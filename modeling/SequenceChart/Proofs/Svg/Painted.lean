import SequenceChart.Drawing.Recorder
import SequenceChart.Svg.Canvas

namespace SequenceChart.Svg

namespace Canvas

variable {α : Type} [LE α] [DecidableLE α] [∀ n, OfNat α n]

/-- Why a canvas with a number of open groups refuses a call, if it does. -/
def refusal? (depth : Nat) : Call α → Option (CanvasError α)
  | .line _ _ _ width _ | .arrow _ _ _ width _ _ _ =>
    if width ≤ 0 then some (.strokeWidth width) else none
  | .text _ horizontal _ _ _ _ =>
    match anchorOf horizontal with
    | .ok _ => none
    | .error error => some error
  | .pop => if depth = 0 then some .popWithoutPush else none
  | _ => none

theorem checkWidth_of_not_le {width : α} (hwidth : ¬ width ≤ 0) : checkWidth width = .ok width :=
  if_neg hwidth

theorem checkWidth_of_le {width : α} (hwidth : width ≤ 0) :
    checkWidth width = .error (.strokeWidth width) :=
  if_pos hwidth

variable [Add α] [Sub α] [Mul α] [Div α] [LT α] [DecidableLT α] [BEq α] [Coordinate α]

/-- The shapes that a call adds if it is not refused. -/
def shapesOf (pen : Pen α) : Call α → StateM Twister (List (Shape α))
  | .rectangle corner size color => outlineShapes pen.jitter corner size color
  | .fill corner size color => return [.filled corner size color]
  | .line dashed start stop width color =>
    strokeShapes pen.jitter [⟨start, stop, width, color, dashed⟩]
  | .arrow dashed start stop width color headLength headWidth =>
    arrowShapes pen.jitter ⟨start, stop, width, color, dashed⟩ headLength headWidth
  | .text text horizontal vertical corner size color =>
    return (textShapes pen.font text horizontal vertical corner size color).toOption.getD []
  | .measure _ => return []
  | .push dx dy => return [.openGroup dx dy]
  | .pop => return [.closeGroup]

/-- The canvas after a call that it does not refuse. -/
def painted (pen : Pen α) (call : Call α) (canvas : Canvas α) : Canvas α where
  shapes := canvas.shapes ++ (shapesOf pen call canvas.random).1
  depth := (canvas.depth + call.descent).toNat
  random := (shapesOf pen call canvas.random).2

/-- A call of a canvas either is refused and changes nothing, or adds its shapes and opens or closes
    its group. -/
theorem surface_run (pen : Pen α) (call : Call α) (canvas : Canvas α) :
    (surface pen call).run canvas =
      match refusal? canvas.depth call with
      | some error => (.error error, canvas)
      | none => (.ok (), canvas.painted pen call) := by
  cases call with
  | rectangle corner size color => rfl
  | fill corner size color => rfl
  | line dashed start stop width color =>
    by_cases hwidth : width ≤ 0
    · simp only [surface, refusal?, checkWidth_of_le hwidth, if_pos hwidth]
      rfl
    · simp only [surface, refusal?, checkWidth_of_not_le hwidth, if_neg hwidth]
      rfl
  | arrow dashed start stop width color headLength headWidth =>
    by_cases hwidth : width ≤ 0
    · simp only [surface, refusal?, checkWidth_of_le hwidth, if_pos hwidth]
      rfl
    · simp only [surface, refusal?, checkWidth_of_not_le hwidth, if_neg hwidth]
      rfl
  | text text horizontal vertical corner size color =>
    cases hanchor : anchorOf (α := α) horizontal with
    | error error =>
      simp only [surface, refusal?, textShapes, hanchor]
      rfl
    | ok anchor =>
      simp only [surface, refusal?, painted, shapesOf, textShapes, hanchor]
      rfl
  | measure text =>
    have hsame : canvas.painted pen (.measure text) = canvas := by
      simp only [painted, Call.descent, Int.add_zero, Int.toNat_natCast]
      exact congrArg (Canvas.mk · canvas.depth canvas.random) (List.append_nil _)
    rw [hsame]
    rfl
  | push dx dy => rfl
  | pop =>
    obtain ⟨shapes, depth, random⟩ := canvas
    cases depth with
    | zero => rfl
    | succ depth =>
      have hleft : ((depth + 1 : Nat) + Call.descent (α := α) .pop).toNat = depth := by
        simp only [Call.descent]
        omega
      simp only [refusal?, painted, hleft]
      rfl

/-- A canvas counts its open groups through every call that it does not refuse. -/
theorem painted_depth (pen : Pen α) {call : Call α} {canvas : Canvas α}
    (hgranted : refusal? canvas.depth call = none) :
    ((canvas.painted pen call).depth : Int) = canvas.depth + call.descent := by
  have hdeep : 0 ≤ (canvas.depth : Int) + call.descent := by
    cases call with
    | pop =>
      have hdepth : canvas.depth ≠ 0 := fun hclosed => by simp [refusal?, hclosed] at hgranted
      simp only [Call.descent]
      omega
    | _ =>
      simp only [Call.descent]
      omega
  exact Int.toNat_of_nonneg hdeep

end Canvas

end SequenceChart.Svg
