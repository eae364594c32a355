import SequenceChart.Drawing.OfLayout
import SequenceChart.Proofs.Layout.Columns
import SequenceChart.Proofs.Layout.Spot

namespace SequenceChart

open Distance

theorem smaller_eq_min (a b : ℚ) : smaller a b = min a b :=
  (min_def_lt b a).symm.trans (min_comm b a)

/-- The points that a call draws between: two opposite corners of a box, or the ends of a line. -/
def Call.corners : Call ℚ → List (Point ℚ)
  | .rectangle corner size _ => [corner, corner.offset size.width size.height]
  | .fill corner size _ => [corner, corner.offset size.width size.height]
  | .text _ _ _ corner size _ => [corner, corner.offset size.width size.height]
  | .line _ start stop _ _ => [start, stop]
  | .arrow _ start stop _ _ _ _ => [start, stop]
  | .measure _ | .push _ _ | .pop => []

namespace Drawing

@[simp] theorem corners_segment (palette : Palette ℚ) (dashed hasHead : Bool) (start stop : Point ℚ) :
    (segment palette dashed hasHead start stop).corners = [start, stop] := by
  rw [segment]
  split <;> rfl

/-- The lines of a signal lead from its source to its target in its row. Only the loop of a signal
    to its source goes further to the right and down. -/
theorem mem_corners_signalLines {palette : Palette ℚ} {row : SignalRow ℚ} {line : Call ℚ}
    (hline : line ∈ signalLines palette row) {point : Point ℚ} (hpoint : point ∈ line.corners) :
    (point.x = row.startX ∨ point.x = row.endX ∨ row.isSelf = true ∧ point.x = row.startX + loopWidth) ∧
      (point.y = row.y ∨ row.isSelf = true ∧ point.y = row.y + loopHeight) := by
  cases hself : row.isSelf with
  | true =>
    simp only [signalLines, hself, if_true, List.mem_cons, List.not_mem_nil, or_false] at hline
    obtain rfl | rfl | rfl := hline <;>
      simp only [corners_segment, List.mem_cons, List.not_mem_nil, or_false] at hpoint <;>
      obtain rfl | rfl := hpoint <;> simp
  | false =>
    simp only [signalLines, hself, Bool.false_eq_true, if_false, List.mem_singleton] at hline
    subst hline
    simp only [corners_segment, List.mem_cons, List.not_mem_nil, or_false] at hpoint
    obtain rfl | rfl := hpoint <;> simp

/-- The label of a signal to another participant is above the line, from one end of it to the
    other. -/
theorem corners_signalLabel (palette : Palette ℚ) {row : SignalRow ℚ} (hself : row.isSelf = false) :
    (signalLabel palette row).corners =
      [⟨min row.startX row.endX, row.top⟩, ⟨max row.startX row.endX, row.y - labelGap⟩] := by
  simp only [signalLabel, hself, Bool.false_eq_true, if_false, Call.corners, Point.offset,
    smaller_eq_min, larger_eq_max, add_sub_cancel, SignalRow.top, sub_add_cancel]

/-- The label of a signal to its source is beside the loop. -/
theorem corners_signalLabel_self (palette : Palette ℚ) {row : SignalRow ℚ} (hself : row.isSelf = true) :
    (signalLabel palette row).corners.map Point.x =
      [row.startX + loopWidth + labelGap, row.startX + loopWidth + labelGap + row.labelWidth] := by
  simp only [signalLabel, hself, if_true, Call.corners, Point.offset, List.map_cons, List.map_nil]

end Drawing

end SequenceChart
