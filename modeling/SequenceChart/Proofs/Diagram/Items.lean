import SequenceChart.Proofs.Diagram.Contents

namespace SequenceChart

/-- What takes room from top to bottom on its own: a signal, or a fragment with what it holds. -/
inductive Item where
  | signal (message : Signal)
  | fragment (fragment : Fragment)
  deriving DecidableEq

namespace Item

def signal? : Item → Option Signal
  | .signal message => some message
  | .fragment _ => none

def fragment? : Item → Option Fragment
  | .signal _ => none
  | .fragment found => some found

end Item

mutual

/-- The signals and fragments of a body that lies in a number of other ones, in the order of the
    source. A fragment is in front of what it holds. -/
def Body.items (depth : Nat) : Body → List Item
  | .empty => []
  | .signal message rest => .signal message :: rest.items depth
  | .activation _ _ rest => rest.items depth
  | .fragment kind operands rest =>
    .fragment ⟨depth, kind, operands⟩ :: (operands.items (depth + 1)).flatten ++ rest.items depth

/-- The signals and fragments of operands, those of each operand apart. -/
def Operands.items (depth : Nat) : Operands → List (List Item)
  | .none => []
  | .cons _ body rest => body.items depth :: rest.items depth

end

mutual

theorem Body.filterMap_items_fragment? : ∀ (body : Body) (depth : Nat),
    (body.items depth).filterMap Item.fragment? = body.fragments depth
  | .empty, _ => rfl
  | .signal message rest, depth => by
    simp [Body.items, Body.fragments, List.filterMap_cons, Item.fragment?,
      rest.filterMap_items_fragment? depth]
  | .activation name starts rest, depth => rest.filterMap_items_fragment? depth
  | .fragment kind operands rest, depth => by
    simp [Body.items, Body.fragments, Item.fragment?, rest.filterMap_items_fragment? depth,
      operands.filterMap_items_fragment? (depth + 1)]

theorem Operands.filterMap_items_fragment? : ∀ (operands : Operands) (depth : Nat),
    (operands.items depth).flatten.filterMap Item.fragment? = operands.fragments depth
  | .none, _ => rfl
  | .cons guard body rest, depth => by
    simp [Operands.items, Operands.fragments, body.filterMap_items_fragment? depth,
      rest.filterMap_items_fragment? depth]

end

mutual

theorem Body.filterMap_items_signal? : ∀ (body : Body) (depth : Nat),
    (body.items depth).filterMap Item.signal? = body.signals
  | .empty, _ => rfl
  | .signal message rest, depth => by
    simp [Body.items, Body.signals, Item.signal?, rest.filterMap_items_signal? depth]
  | .activation name starts rest, depth => rest.filterMap_items_signal? depth
  | .fragment kind operands rest, depth => by
    simp [Body.items, Body.signals, List.filterMap_cons, Item.signal?,
      rest.filterMap_items_signal? depth, operands.filterMap_items_signal? (depth + 1)]

theorem Operands.filterMap_items_signal? : ∀ (operands : Operands) (depth : Nat),
    (operands.items depth).flatten.filterMap Item.signal? = operands.signals
  | .none, _ => rfl
  | .cons guard body rest, depth => by
    simp [Operands.items, Operands.signals, body.filterMap_items_signal? depth,
      rest.filterMap_items_signal? depth]

end

end SequenceChart
