import SequenceChart.Proofs.Svg.Painted
import SequenceChart.Svg.Document

namespace SequenceChart.Svg.Canvas

/-- What can be asked of a canvas: a call, or its document. -/
inductive Request (α : Type) where
  | call (call : Call α)
  | document (width height : α) (background : Color α) (transparent : Bool)
  deriving DecidableEq

/-- The kind of the call that a request makes, if it makes one. -/
def Request.kind? {α : Type} : Request α → Option CallKind
  | call c => some c.kind
  | document .. => none

variable {α : Type} [Add α] [Sub α] [Mul α] [Div α] [LT α] [DecidableLT α] [LE α] [DecidableLE α]
  [BEq α] [∀ n, OfNat α n] [Coordinate α]

/-- How a canvas answers a request. Only a document is an answer with a content. -/
def answer (pen : Pen α) (canvas : Canvas α) : Request α → Except (CanvasError α) (Option String)
  | .call c => ((surface pen c).run canvas).1.map fun _ => none
  | .document width height background transparent =>
    (canvas.document pen.family width height background transparent).map some

/-- The canvas after a request, also after one that it refuses. -/
def next (pen : Pen α) (canvas : Canvas α) : Request α → Canvas α
  | .call c => ((surface pen c).run canvas).2
  | .document .. => canvas

/-- The canvas after requests, in their order. -/
def afterRequests (pen : Pen α) (canvas : Canvas α) (requests : List (Request α)) : Canvas α :=
  requests.foldl (next pen) canvas

/-- The call that a request makes, if it makes one that is not refused. -/
def granted? (pen : Pen α) (canvas : Canvas α) : Request α → Option (Call α)
  | .call c => if (canvas.answer pen (.call c)).isOk then some c else none
  | .document .. => none

/-- The calls among requests that are not refused, in their order. -/
def granted (pen : Pen α) (canvas : Canvas α) : List (Request α) → List (Call α)
  | [] => []
  | request :: rest => (canvas.granted? pen request).toList ++ granted pen (canvas.next pen request) rest

variable {pen : Pen α} {canvas : Canvas α}

theorem answer_of_refusal (pen : Pen α) {call : Call α} {error : CanvasError α}
    (hrefusal : refusal? canvas.depth call = some error) :
    canvas.answer pen (.call call) = .error error ∧ canvas.granted? pen (.call call) = none ∧
      canvas.next pen (.call call) = canvas := by
  have hanswer : canvas.answer pen (.call call) = .error error := by
    rw [answer, surface_run, hrefusal]
    rfl
  refine ⟨hanswer, ?_, ?_⟩
  · rw [granted?, hanswer]
    rfl
  · rw [next, surface_run, hrefusal]

theorem answer_of_granted (pen : Pen α) {call : Call α} (hgranted : refusal? canvas.depth call = none) :
    canvas.answer pen (.call call) = .ok none ∧ canvas.granted? pen (.call call) = some call ∧
      canvas.next pen (.call call) = canvas.painted pen call := by
  have hanswer : canvas.answer pen (.call call) = .ok none := by
    rw [answer, surface_run, hgranted]
    rfl
  refine ⟨hanswer, ?_, ?_⟩
  · rw [granted?, hanswer]
    rfl
  · rw [next, surface_run, hgranted]

/-- A call is refused exactly if there is a reason for it. -/
theorem answer_call_eq_error_iff {call : Call α} {error : CanvasError α} :
    canvas.answer pen (.call call) = .error error ↔ refusal? canvas.depth call = some error := by
  cases hrefusal : refusal? canvas.depth call with
  | some reason => simp [(answer_of_refusal pen hrefusal).1]
  | none => simp [(answer_of_granted pen hrefusal).1]

theorem answer_document_eq_error_iff {width height : α} {background : Color α} {transparent : Bool}
    {error : CanvasError α} :
    canvas.answer pen (.document width height background transparent) = .error error ↔
      canvas.depth ≠ 0 ∧ error = .stillPushed canvas.depth := by
  by_cases hclosed : canvas.depth = 0
  · simp [answer, document, hclosed, Except.map]
  · simp [answer, document, hclosed, Except.map, eq_comm]

/-- A request that is refused changes nothing. -/
theorem next_of_answer_eq_error {request : Request α} {error : CanvasError α}
    (hanswer : canvas.answer pen request = .error error) : canvas.next pen request = canvas := by
  cases request with
  | call c => exact (answer_of_refusal pen (answer_call_eq_error_iff.1 hanswer)).2.2
  | document => rfl

/-- What every request keeps holds after all requests. -/
theorem afterRequests_keeps {P : Canvas α → Prop}
    (hnext : ∀ canvas request, P canvas → P (canvas.next pen request)) (hcanvas : P canvas)
    (requests : List (Request α)) : P (canvas.afterRequests pen requests) := by
  induction requests generalizing canvas with
  | nil => exact hcanvas
  | cons request rest ih => exact ih (hnext canvas request hcanvas)

end SequenceChart.Svg.Canvas
