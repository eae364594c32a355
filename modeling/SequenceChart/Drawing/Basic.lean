import SequenceChart.Color.Basic
import SequenceChart.Geometry

namespace SequenceChart

/-- Where text stands in its box, in one direction. -/
inductive Alignment where
  | start
  | center
  | finish
  | other (name : String)
  deriving DecidableEq

/-- What can be asked of a drawing surface. Coordinates count from the current origin, which a
    push moves and the next pop moves back. -/
inductive Call (α : Type) where
  | rectangle (corner : Point α) (size : Size α) (color : Color α)
  | fill (corner : Point α) (size : Size α) (color : Color α)
  | line (dashed : Bool) (start stop : Point α) (width : α) (color : Color α)
  | arrow (dashed : Bool) (start stop : Point α) (width : α) (color : Color α)
      (headLength headWidth : α)
  | text (text : String) (horizontal vertical : Alignment) (corner : Point α) (size : Size α)
      (color : Color α)
  | measure (text : String)
  | push (dx dy : α)
  | pop
  deriving DecidableEq

/-- Calls in order, some of them under a moved origin. -/
inductive Drawing (α : Type) where
  | done
  | call (call : Call α) (rest : Drawing α)
  | within (dx dy : α) (body rest : Drawing α)
  deriving DecidableEq

/-- How a surface with a state answers calls. -/
abbrev Surface (α σ ε : Type) := Call α → ExceptT ε (StateM σ) Unit

variable {α σ ε : Type}

/-- Draws under a moved origin, which is moved back in any case. If that fails too, its error
    counts. -/
def Surface.within (surface : Surface α σ ε) (dx dy : α) (body : ExceptT ε (StateM σ) Unit) :
    ExceptT ε (StateM σ) Unit := do
  surface (.push dx dy)
  try body finally surface .pop

/-- The origin is moved back whether the body fails or not. A failure to do so hides one of the
    body. -/
theorem Surface.within_run (surface : Surface α σ ε) (dx dy : α)
    (body : ExceptT ε (StateM σ) Unit) (before : σ) :
    (surface.within dx dy body).run before =
      match (surface (.push dx dy)).run before with
      | (.error error, after) => (.error error, after)
      | (.ok _, inside) =>
        match (surface .pop).run (body.run inside).2 with
        | (.error error, after) => (.error error, after)
        | (.ok _, after) => ((body.run inside).1, after) := by
  rcases hpush : surface (.push dx dy) before with ⟨pushed, inside⟩
  rcases hbody : body inside with ⟨result, ended⟩
  rcases hpop : surface .pop ended with ⟨popped, after⟩
  unfold Surface.within
  cases pushed with
  | error error =>
    simp [ExceptT.run, bind, ExceptT.bind, ExceptT.mk, StateT.bind, ExceptT.bindCont, hpush]
    rfl
  | ok _ =>
    simp only [ExceptT.run, bind, ExceptT.bind, ExceptT.mk, StateT.bind, ExceptT.bindCont, hpush,
      tryFinally, tryFinally', hbody, hpop, Functor.map, ExceptT.map]
    cases result <;> cases popped <;> simp only [hpop] <;> rfl

namespace Drawing

/-- One drawing after another. -/
def append : Drawing α → Drawing α → Drawing α
  | done, after => after
  | call c rest, after => call c (rest.append after)
  | within dx dy body rest, after => within dx dy body (rest.append after)

instance : Append (Drawing α) where
  append := append

/-- The drawing of calls in order. -/
def ofCalls (calls : List (Call α)) : Drawing α :=
  calls.foldr call done

/-- One drawing for every item, in order. -/
def forAll {β : Type} (draw : β → Drawing α) (items : List β) : Drawing α :=
  items.foldr (fun item rest => draw item ++ rest) done

/-- Performs a drawing on a surface up to the first call that fails. -/
def run (surface : Surface α σ ε) : Drawing α → ExceptT ε (StateM σ) Unit
  | done => pure ()
  | call c rest => do
    surface c
    rest.run surface
  | within dx dy body rest => do
    surface.within dx dy (body.run surface)
    rest.run surface

/-- A drawing after another one is performed after it, unless that one fails. -/
theorem run_append (surface : Surface α σ ε) (first second : Drawing α) :
    (first ++ second).run surface =
      (do first.run surface; second.run surface : ExceptT ε (StateM σ) Unit) := by
  induction first with
  | done => rfl
  | call c rest ih =>
    change (do surface c; (rest ++ second).run surface) = _
    rw [ih]
    simp [run]
  | within dx dy body rest _ ih =>
    change (do surface.within dx dy (body.run surface); (rest ++ second).run surface) = _
    rw [ih]
    simp [run]

end Drawing

end SequenceChart
