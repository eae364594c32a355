namespace SequenceChart

/-- A point of the drawing plane. The second coordinate grows downwards. -/
structure Point (α : Type) where
  x : α
  y : α
  deriving DecidableEq

/-- The extent of a box. -/
structure Size (α : Type) where
  width : α
  height : α
  deriving DecidableEq

variable {α : Type}

/-- The second number if it exceeds the first, else the first. -/
def larger [LT α] [DecidableLT α] (a b : α) : α :=
  if a < b then b else a

/-- The second number if the first exceeds it, else the first. -/
def smaller [LT α] [DecidableLT α] (a b : α) : α :=
  if b < a then b else a

/-- A count as a coordinate. -/
def ofCount [∀ n, OfNat α n] (n : Nat) : α :=
  OfNat.ofNat n

/-- The total of a list, added up from the left. -/
def total [Add α] [∀ n, OfNat α n] (xs : List α) : α :=
  xs.foldl (· + ·) 0

/-- The point moved by a vector. -/
def Point.offset [Add α] (p : Point α) (dx dy : α) : Point α :=
  ⟨p.x + dx, p.y + dy⟩

end SequenceChart
