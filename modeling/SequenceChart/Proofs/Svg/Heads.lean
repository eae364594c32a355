import SequenceChart.Proofs.Drawing.Arrows
import SequenceChart.Proofs.Svg.Strokes

namespace SequenceChart

/-- The length of a level vector is exact. -/
theorem ratLength_zero (x : ℚ) : ratLength x 0 = |x| := by
  have hsquare : x * x + 0 * 0 = x * x := by ring
  have harea : (x * x).num.natAbs * (x * x).den = (x.num.natAbs * x.den) * (x.num.natAbs * x.den) := by
    rw [Rat.mul_self_num, Rat.mul_self_den, Int.natAbs_mul]
    ring
  have hden : (x.den : ℚ) ≠ 0 := by exact_mod_cast x.den_nz
  simp only [ratLength, hsquare, harea, Nat.sqrt_eq, if_true]
  rw [Rat.mul_self_den, Rat.mkRat_eq_div, Rat.abs_def, Rat.divInt_eq_div]
  push_cast
  field_simp

namespace Call

/-- A call whose arrow, if it draws one, is level and longer than its head, which has an extent. -/
def Pointed : Call ℚ → Prop
  | .arrow _ start stop _ _ headLength _ =>
    stop.y = start.y ∧ 0 < headLength ∧ headLength < |stop.x - start.x|
  | _ => True

end Call

namespace Svg

/-- Whether a shape is a triangle. -/
def Shape.isTriangle {α : Type} : Shape α → Bool
  | .triangle .. => true
  | _ => false

/-- The head of the arrow that a call draws. Its tip is the end of the arrow, and the middle of its base
    lies between both ends, as far from the tip as the head is long. -/
def Shape.HeadOf : Call ℚ → Shape ℚ → Prop
  | .arrow _ start stop _ color headLength _, .triangle tip left right shade =>
    let base : Point ℚ := ⟨(left.x + right.x) / 2, (left.y + right.y) / 2⟩
    tip = stop ∧ shade = color ∧ base.y = stop.y ∧ |stop.x - base.x| = headLength ∧
      (start.x < base.x ∧ base.x < stop.x ∨ stop.x < base.x ∧ base.x < start.x)
  | _, _ => False

namespace Canvas

section Triangles

variable {α : Type} [Add α] [Mul α] [Div α] [∀ n, OfNat α n]

theorem triangles_lineShapes (font : Font α) (color : Color α) (anchor : Anchor) (x top : α) (i : Nat)
    (lines : List String) :
    (lineShapes font color anchor x top i lines).filter Shape.isTriangle = [] := by
  induction lines generalizing i with
  | nil => rfl
  | cons line rest ih => exact ih (i + 1)

variable [Sub α] [LT α] [DecidableLT α]

theorem triangles_strokeShape (jitter : α) (stroke : Stroke α) (random : Twister) :
    (strokeShape jitter stroke random).1.isTriangle = false :=
  strokeShape_keeps (P := fun shape => shape.isTriangle = false) (fun _ => rfl) (fun _ _ _ => rfl) ..

theorem triangles_strokeShapes (jitter : α) (strokes : List (Stroke α)) (random : Twister) :
    (strokeShapes jitter strokes random).1.filter Shape.isTriangle = [] :=
  List.filter_eq_nil_iff.2
    (strokeShapes_keep (fun _ => nofun) (fun _ _ _ => nofun) jitter strokes random)

end Triangles

/-- Of the shapes of a level arrow that is longer than its head, one is the head. -/
theorem arrowShapes_headOf (jitter : ℚ) {dashed : Bool} {start stop : Point ℚ} {width : ℚ}
    {color : Color ℚ} {headLength headWidth : ℚ}
    (hpointed : Call.Pointed (.arrow dashed start stop width color headLength headWidth))
    (random : Twister) :
    ∃ head, (arrowShapes jitter ⟨start, stop, width, color, dashed⟩ headLength headWidth random).1.filter
        Shape.isTriangle = [head] ∧
      Shape.HeadOf (.arrow dashed start stop width color headLength headWidth) head := by
  obtain ⟨hlevel, hextent, hlong⟩ := hpointed
  have hdy : stop.y - start.y = 0 := by rw [hlevel, sub_self]
  have hlength : Coordinate.length (stop.x - start.x) 0 = |stop.x - start.x| := ratLength_zero _
  have hpos : 0 < |stop.x - start.x| := hextent.trans hlong
  have hsome : ¬ (|stop.x - start.x| == 0) = true := fun hzero => hpos.ne' (eq_of_beq hzero)
  let along := (stop.x - start.x) / |stop.x - start.x|
  let base : Point ℚ := ⟨stop.x - along * headLength, stop.y⟩
  let across := along * headWidth / 2
  let head : Shape ℚ := .triangle stop ⟨base.x, base.y + across⟩ ⟨base.x, base.y - across⟩ color
  have hshapes : (arrowShapes jitter ⟨start, stop, width, color, dashed⟩ headLength headWidth random).1 =
      [(strokeShape jitter ⟨start, base, width, color, dashed⟩ random).1, head] := by
    simp only [arrowShapes, hdy, hlength, if_neg hsome, zero_div, zero_mul, sub_zero, add_zero]
    rfl
  refine ⟨head, ?_, rfl, rfl, ?_⟩
  · rw [hshapes, List.filter_cons_of_neg (by simp [triangles_strokeShape])]
    rfl
  · have hmiddle : (base.x + base.x) / 2 = base.x := by ring
    have hcenter : (base.y + across + (base.y - across)) / 2 = stop.y := by ring
    rw [hmiddle]
    refine ⟨hcenter, ?_⟩
    obtain hleft | hright := lt_or_gt_of_ne (abs_pos.1 hpos)
    · have halong : along = -1 := by
        simp only [along, abs_of_neg hleft]
        exact div_neg_self hleft.ne
      have hbase : base.x = stop.x + headLength := by
        simp only [base, halong]
        ring
      rw [abs_of_neg hleft] at hlong
      rw [hbase, sub_add_cancel_left, abs_neg, abs_of_pos hextent]
      exact ⟨rfl, .inr ⟨by linarith, by linarith⟩⟩
    · have halong : along = 1 := by
        simp only [along, abs_of_pos hright]
        exact div_self hright.ne'
      have hbase : base.x = stop.x - headLength := by
        simp only [base, halong]
        ring
      rw [abs_of_pos hright] at hlong
      rw [hbase, sub_sub_cancel, abs_of_pos hextent]
      exact ⟨rfl, .inl ⟨by linarith, by linarith⟩⟩

/-- A call adds one head if it draws an arrow, and no triangle otherwise. -/
theorem heads_shapesOf (pen : Pen ℚ) {call : Call ℚ} (hpointed : call.Pointed) (random : Twister) :
    List.Forall₂ Shape.HeadOf ([call].filter (·.arrow?.isSome))
      ((shapesOf pen call random).1.filter Shape.isTriangle) := by
  have hnone (harrow : call.arrow? = none)
      (hshapes : (shapesOf pen call random).1.filter Shape.isTriangle = []) :
      List.Forall₂ Shape.HeadOf ([call].filter (·.arrow?.isSome))
        ((shapesOf pen call random).1.filter Shape.isTriangle) := by
    rw [hshapes, List.filter_cons_of_neg (by simp [harrow])]
    exact .nil
  cases call with
  | rectangle corner size color =>
    refine hnone rfl ?_
    by_cases hjitter : 0 < pen.jitter
    · simp only [shapesOf, outlineShapes, if_pos hjitter]
      exact triangles_strokeShapes ..
    · simp only [shapesOf, outlineShapes, if_neg hjitter]
      rfl
  | line dashed start stop width color => exact hnone rfl (triangles_strokeShapes ..)
  | arrow dashed start stop width color headLength headWidth =>
    obtain ⟨head, hhead, hheadOf⟩ := arrowShapes_headOf pen.jitter hpointed random
    have hshapes : (shapesOf pen (.arrow dashed start stop width color headLength headWidth) random).1.filter
        Shape.isTriangle = [head] := hhead
    rw [hshapes]
    exact .cons hheadOf .nil
  | text label horizontal vertical corner size color =>
    refine hnone rfl ?_
    cases hanchor : anchorOf (α := ℚ) horizontal with
    | error error =>
      simp only [shapesOf, textShapes, hanchor]
      rfl
    | ok anchor =>
      simp only [shapesOf, textShapes, hanchor]
      exact triangles_lineShapes ..
  | fill | measure | push | pop => exact hnone rfl rfl

/-- A canvas that answers calls adds one head for each arrow among them, in order. -/
theorem heads_of_answers {pen : Pen ℚ} {calls : List (Call ℚ)} (hpointed : ∀ call ∈ calls, call.Pointed)
    {start after : Canvas ℚ} (hanswers : (surface pen).Answers start calls after) :
    ∃ shapes, after.shapes = start.shapes ++ shapes ∧
      List.Forall₂ Shape.HeadOf (calls.filter (·.arrow?.isSome)) (shapes.filter Shape.isTriangle) := by
  induction calls generalizing start with
  | nil =>
    obtain rfl : start = after := hanswers
    exact ⟨[], (List.append_nil _).symm, .nil⟩
  | cons call rest ih =>
    obtain ⟨hcall, hrest⟩ := List.forall_mem_cons.1 hpointed
    obtain ⟨middle, hanswer, hanswers⟩ := hanswers
    rw [surface_run] at hanswer
    cases hrefusal : refusal? start.depth call with
    | some error =>
      simp only [hrefusal] at hanswer
      cases hanswer
    | none =>
      simp only [hrefusal] at hanswer
      cases hanswer
      obtain ⟨shapes, hshapes, hheads⟩ := ih hrest hanswers
      refine ⟨(shapesOf pen call start.random).1 ++ shapes, ?_, ?_⟩
      · rw [hshapes, painted, List.append_assoc]
      · rw [← List.singleton_append, List.filter_append, List.filter_append]
        exact List.rel_append (heads_shapesOf pen hcall start.random) hheads

end Canvas

end Svg

end SequenceChart
