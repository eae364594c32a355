import SequenceChart.Diagram.Builder

namespace SequenceChart

/-- The way from an operand to one inside it. Each step enters a fragment: it tells how many things
    happen in front of the fragment, and how many operands of the fragment are passed by. -/
abbrev Way := List (Nat × Nat)

/-- How many things happen in a body, those inside a fragment not counted. -/
def Body.length : Body → Nat
  | .empty => 0
  | .signal _ rest => rest.length + 1
  | .activation _ _ rest => rest.length + 1
  | .fragment _ _ rest => rest.length + 1

def Operands.length : Operands → Nat
  | .none => 0
  | .cons _ _ rest => rest.length + 1

/-- The fragment that stands behind a number of things in a body, if one does: its kind and operands. -/
def Body.fragment? : Body → Nat → Option (String × Operands)
  | .empty, _ => none
  | .signal _ _, 0 => none
  | .activation _ _ _, 0 => none
  | .fragment kind operands _, 0 => some (kind, operands)
  | .signal _ rest, i + 1 => rest.fragment? i
  | .activation _ _ rest, i + 1 => rest.fragment? i
  | .fragment _ _ rest, i + 1 => rest.fragment? i

/-- What the operand behind a number of others holds. -/
def Operands.body? : Operands → Nat → Option Body
  | .none, _ => Option.none
  | .cons _ body _, 0 => some body
  | .cons _ _ rest, i + 1 => rest.body? i

/-- The body with the operands of one of its fragments changed. -/
def Body.change (f : Operands → Operands) : Body → Nat → Body
  | .empty, _ => .empty
  | .signal message rest, 0 => .signal message rest
  | .activation name starts rest, 0 => .activation name starts rest
  | .fragment kind operands rest, 0 => .fragment kind (f operands) rest
  | .signal message rest, i + 1 => .signal message (rest.change f i)
  | .activation name starts rest, i + 1 => .activation name starts (rest.change f i)
  | .fragment kind operands rest, i + 1 => .fragment kind operands (rest.change f i)

/-- The operands with what one of them holds changed. -/
def Operands.change (f : Body → Body) : Operands → Nat → Operands
  | .none, _ => .none
  | .cons guard body rest, 0 => .cons guard (f body) rest
  | .cons guard body rest, i + 1 => .cons guard body (rest.change f i)

namespace Body

/-- What the operand holds to which a way leads, if it leads to one. -/
def reach? (body : Body) : Way → Option Body
  | [] => some body
  | (i, k) :: way => do
    let (_, operands) ← body.fragment? i
    let inner ← operands.body? k
    inner.reach? way

/-- The body with an element at the end of the operand to which a way leads. -/
def insert (body : Body) (element : Element) : Way → Body
  | [] => body.push element
  | (i, k) :: way => body.change (fun operands => operands.change (·.insert element way) k) i

theorem fragment?_push (front : Body) (kind : String) (operands : Operands) :
    (front.push (.fragment kind operands)).fragment? front.length = some (kind, operands) := by
  change (front.append (.fragment kind operands .empty)).fragment? front.length = _
  fun_induction length front with
  | case1 => rfl
  | case2 message rest ih => exact ih
  | case3 name starts rest ih => exact ih
  | case4 other inner rest ih => exact ih

theorem change_push (f : Operands → Operands) (front : Body) (kind : String) (operands : Operands) :
    (front.push (.fragment kind operands)).change f front.length =
      front.push (.fragment kind (f operands)) := by
  change (front.append (.fragment kind operands .empty)).change f front.length =
    front.append (.fragment kind (f operands) .empty)
  fun_induction length front with
  | case1 => rfl
  | case2 message rest ih => exact congrArg (Body.signal message) ih
  | case3 name starts rest ih => exact congrArg (Body.activation name starts) ih
  | case4 other inner rest ih => exact congrArg (Body.fragment other inner) ih

end Body

namespace Operands

theorem length_push (operands : Operands) (guard : String) (body : Body) :
    (operands.push guard body).length = operands.length + 1 := by
  fun_induction push operands guard body with
  | case1 => rfl
  | case2 first own rest guard body ih => rw [length, length, ih]

theorem body?_push (operands : Operands) (guard : String) (body : Body) :
    (operands.push guard body).body? operands.length = some body := by
  fun_induction push operands guard body with
  | case1 => rfl
  | case2 first own rest guard body ih => exact ih

theorem change_push (f : Body → Body) (operands : Operands) (guard : String) (body : Body) :
    (operands.push guard body).change f operands.length = operands.push guard (f body) := by
  fun_induction push operands guard body with
  | case1 => rfl
  | case2 first own rest guard body ih => exact congrArg (Operands.cons first own) ih

end Operands

namespace Enclosure

/-- The step from the operand around a fragment into the current operand of the fragment. -/
def step (enclosure : Enclosure) : Nat × Nat :=
  (enclosure.before.length, enclosure.finished.length)

/-- The way into several fragments, of which the first one is the innermost. -/
def way (enclosures : List Enclosure) : Way :=
  (enclosures.map step).reverse

theorem fragment?_fill (enclosure : Enclosure) (body : Body) :
    (enclosure.fill body).fragment? enclosure.before.length =
      some (enclosure.kind, enclosure.finished.push enclosure.guard body) :=
  Body.fragment?_push _ _ _

theorem change_fill (f : Body → Body) (enclosure : Enclosure) (body : Body) :
    (enclosure.fill body).change (fun operands => operands.change f enclosure.finished.length)
      enclosure.before.length = enclosure.fill (f body) := by
  rw [fill, Body.change_push, Operands.change_push, fill]

theorem way_cons_append (enclosure : Enclosure) (outer : List Enclosure) (onward : Way) :
    way (enclosure :: outer) ++ onward = way outer ++ enclosure.step :: onward := by
  rw [way, List.map_cons, List.reverse_cons, List.append_assoc, List.singleton_append, way]

/-- The way into the fragments leads to what is put into them. -/
theorem reach?_fillAll (enclosures : List Enclosure) (body : Body) (onward : Way) :
    (fillAll enclosures body).reach? (way enclosures ++ onward) = body.reach? onward := by
  induction enclosures generalizing body onward with
  | nil => rfl
  | cons enclosure outer ih =>
    calc (fillAll outer (enclosure.fill body)).reach? (way (enclosure :: outer) ++ onward)
      _ = (enclosure.fill body).reach? (enclosure.step :: onward) := by rw [way_cons_append, ih]
      _ = body.reach? onward := by
        simp only [Body.reach?, step, fragment?_fill, Operands.body?_push, Option.bind_eq_bind,
          Option.bind_some]

/-- What is inserted where the way leads is inserted into what is put into the fragments. -/
theorem insert_fillAll (element : Element) (enclosures : List Enclosure) (body : Body) (onward : Way) :
    (fillAll enclosures body).insert element (way enclosures ++ onward) =
      fillAll enclosures (body.insert element onward) := by
  induction enclosures generalizing body onward with
  | nil => rfl
  | cons enclosure outer ih =>
    calc (fillAll outer (enclosure.fill body)).insert element (way (enclosure :: outer) ++ onward)
      _ = fillAll outer ((enclosure.fill body).insert element (enclosure.step :: onward)) := by
        rw [way_cons_append, ih]
      _ = fillAll outer (enclosure.fill (body.insert element onward)) := by
        rw [step, Body.insert, change_fill]

theorem fillAll_append (inner outer : List Enclosure) (body : Body) :
    fillAll (inner ++ outer) body = fillAll outer (fillAll inner body) :=
  List.foldl_append

end Enclosure

end SequenceChart
