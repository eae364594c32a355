import SequenceChart.Diagram.Basic

namespace SequenceChart

/-- One thing that happens on the way through a diagram from top to bottom. -/
inductive Event where
  | signal (message : Signal)
  | activation (name : String) (starts : Bool)
  | opening (kind guard : String)
  | next (guard : String)
  | closing
  deriving DecidableEq

/-- The participants that an event refers to. -/
def Event.names : Event → List String
  | .signal message => [message.source, message.target]
  | .activation name _ => [name]
  | .opening _ _ | .next _ | .closing => []

/-- A fragment, and how many other ones it lies in. -/
structure Fragment where
  depth : Nat
  kind : String
  operands : Operands
  deriving DecidableEq

mutual

/-- The events of a body, depth first. A fragment opens with the guard of its first operand, and
    closes after its last one. -/
def Body.events : Body → List Event
  | .empty => []
  | .signal message rest => .signal message :: rest.events
  | .activation name starts rest => .activation name starts :: rest.events
  | .fragment kind operands rest =>
    .opening kind operands.label :: operands.events true ++ .closing :: rest.events

/-- The events of operands. Each but the first one of a fragment begins with its guard. -/
def Operands.events (isFirst : Bool) : Operands → List Event
  | .none => []
  | .cons guard body rest =>
    (if isFirst then [] else [.next guard]) ++ body.events ++ rest.events false

end

mutual

/-- The names that the signals and activations of a body refer to, at any depth. -/
def Body.named : Body → List String
  | .empty => []
  | .signal message rest => message.source :: message.target :: rest.named
  | .activation name _ rest => name :: rest.named
  | .fragment _ operands rest => operands.named ++ rest.named

/-- The names that the signals and activations of operands refer to, at any depth. -/
def Operands.named : Operands → List String
  | .none => []
  | .cons _ body rest => body.named ++ rest.named

end

mutual

/-- The fragments of a body that lies in a number of other ones, each in front of those inside it. -/
def Body.fragments (depth : Nat) : Body → List Fragment
  | .empty => []
  | .signal _ rest => rest.fragments depth
  | .activation _ _ rest => rest.fragments depth
  | .fragment kind operands rest =>
    ⟨depth, kind, operands⟩ :: operands.fragments (depth + 1) ++ rest.fragments depth

/-- The fragments of operands. -/
def Operands.fragments (depth : Nat) : Operands → List Fragment
  | .none => []
  | .cons _ body rest => body.fragments depth ++ rest.fragments depth

end

namespace Body

@[simp] theorem events_append (front back : Body) :
    (front ++ back).events = front.events ++ back.events := by
  change (front.append back).events = _
  fun_induction Body.append front back with
  | case1 => rfl
  | case2 back message rest ih => simp [events, ih]
  | case3 back name starts rest ih => simp [events, ih]
  | case4 back kind operands rest ih => simp [events, ih]

@[simp] theorem fragments_append (front back : Body) (depth : Nat) :
    (front ++ back).fragments depth = front.fragments depth ++ back.fragments depth := by
  change (front.append back).fragments depth = _
  fun_induction Body.append front back with
  | case1 => rfl
  | case2 back message rest ih => simp [fragments, ih]
  | case3 back name starts rest ih => simp [fragments, ih]
  | case4 back kind operands rest ih => simp [fragments, ih]

mutual

/-- The names in a body are those in its events. -/
theorem named_eq : ∀ body : Body, body.named = body.events.flatMap Event.names
  | .empty => rfl
  | .signal message rest => by simp [named, events, Event.names, named_eq rest]
  | .activation name starts rest => by simp [named, events, Event.names, named_eq rest]
  | .fragment kind operands rest => by
    simp [named, events, Event.names, named_eq rest, operands_named_eq operands true]

theorem operands_named_eq : ∀ (operands : Operands) (isFirst : Bool),
    operands.named = (operands.events isFirst).flatMap Event.names
  | .none, _ => rfl
  | .cons guard body rest, isFirst => by
    cases isFirst <;>
      simp [Operands.named, Operands.events, Event.names, named_eq body, operands_named_eq rest false]

end

end Body

namespace Operands

theorem push_ne_none (operands : Operands) (guard : String) (body : Body) :
    operands.push guard body ≠ .none := by
  cases operands <;> exact nofun

@[simp] theorem fragments_push (operands : Operands) (guard : String) (body : Body) (depth : Nat) :
    (operands.push guard body).fragments depth = operands.fragments depth ++ body.fragments depth := by
  fun_induction Operands.push operands guard body with
  | case1 => simp [fragments]
  | case2 guard body first other rest ih => simp [fragments, ih]

/-- An operand that is not the first one of its fragment tells its guard in front of its events. -/
theorem events_push {operands : Operands} {isFirst : Bool} (hlater : isFirst = false ∨ operands ≠ .none)
    (guard : String) (body : Body) :
    (operands.push guard body).events isFirst = operands.events isFirst ++ .next guard :: body.events := by
  fun_induction Operands.push operands guard body generalizing isFirst with
  | case1 guard body =>
    obtain rfl | hnone := hlater
    · simp [events]
    · exact absurd rfl hnone
  | case2 guard body first other rest ih =>
    simp [events, ih (.inl rfl)]

/-- What an operand holds comes last among the events of its fragment so far, and has no influence
    on those in front of it. -/
theorem events_push_body (operands : Operands) (guard : String) (body : Body) :
    (operands.push guard body).events true = (operands.push guard .empty).events true ++ body.events := by
  cases operands with
  | none => simp [push, events, Body.events]
  | cons first other rest => simp [events_push, Body.events]

theorem label_push_body (operands : Operands) (guard : String) (body : Body) :
    (operands.push guard body).label = (operands.push guard .empty).label := by
  cases operands <;> rfl

theorem label_push_push (operands : Operands) (guard last : String) (body other : Body) :
    ((operands.push guard body).push last other).label = (operands.push guard .empty).label := by
  cases operands <;> rfl

end Operands

end SequenceChart
