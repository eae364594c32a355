import SequenceChart.Coordinate

namespace SequenceChart

/-- A colour: three channels, of which zero is dark and 255 is bright, and an opacity from zero
    to one. -/
structure Color (α : Type) where
  red : Int
  green : Int
  blue : Int
  alpha : α
  deriving DecidableEq

namespace Color

variable {α : Type} [Add α] [Sub α] [Mul α] [Div α] [∀ n, OfNat α n] [Coordinate α]

/-- A share of one channel blended with the rest of another, to the nearest whole number. -/
def blend (share : α) (a b : Int) : Int :=
  Coordinate.nearest (Coordinate.ofInt a * share + Coordinate.ofInt b * (1 - share))

/-- A percentage of a colour blended into another one. -/
def mix (color other : Color α) (percent : α) : Color α :=
  let share := percent / 100
  { red := blend share color.red other.red
    green := blend share color.green other.green
    blue := blend share color.blue other.blue
    alpha := color.alpha * share + other.alpha * (1 - share) }

end Color

end SequenceChart
