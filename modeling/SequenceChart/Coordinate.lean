import SequenceChart.Decimal.Binary
import SequenceChart.Decimal.Hundredths

namespace SequenceChart

/-- What a drawing needs of its numbers beyond arithmetic and order. -/
class Coordinate (α : Type) where
  /-- A whole number. -/
  ofInt : Int → α
  /-- The nearest whole number. A half goes to the even neighbour. -/
  nearest : α → Int
  /-- The number in a document, with at most two decimal places. -/
  text : α → String
  /-- The Euclidean length of a vector. -/
  length : α → α → α

open Decimal

/-- The double nearest to a whole number of units that are each a power of two. Of a long number
    the leading bits count, and a last bit that tells whether anything follows them. -/
def nearestFloat (units : Nat) (exponent : Int) : Float :=
  let dropped := units.log2 - 64
  let kept := units / Nat.pow 2 dropped
  let marked := if kept * Nat.pow 2 dropped = units then kept else kept ||| 1
  (Float.ofNat marked).scaleB (exponent + dropped)

/-- The double nearest to the square root of a whole number, times a power of two. The root has
    more bits than a double, and a last one that tells whether it is exact. -/
def scaledRoot (square : Nat) (exponent : Int) : Float :=
  let shift : Nat := 64
  let root := Nat.sqrt (square * Nat.pow 4 shift)
  let marked := if root * root = square * Nat.pow 4 shift then 2 * root else 2 * root + 1
  nearestFloat marked (exponent - shift - 1)

/-- The length of a vector of doubles, rounded once. Neither large nor small components spoil
    it. -/
def floatLength (x y : Float) : Float :=
  match Binary.ofFloat? x, Binary.ofFloat? y with
  | some a, some b =>
    let unit := if a.exponent ≤ b.exponent then a.exponent else b.exponent
    let width := a.units * Nat.pow 2 (a.exponent - unit).toNat
    let height := b.units * Nat.pow 2 (b.exponent - unit).toNat
    scaledRoot (width * width + height * height) unit
  | _, _ => x.abs + y.abs

/-- The length of a rational vector. It is exact when it is rational, and else too small by less
    than a billionth over the denominator of the square. -/
def ratLength (x y : Rat) : Rat :=
  let square := x * x + y * y
  let area := square.num.natAbs * square.den
  let root := Nat.sqrt area
  if root * root = area then mkRat root square.den
  else mkRat (Nat.sqrt (area * Nat.pow 10 18)) (Nat.pow 10 9 * square.den)

instance : Coordinate Rat where
  ofInt n := n
  nearest := roundRat
  text := coordinateText
  length := ratLength

instance : Coordinate Float where
  ofInt := Float.ofInt
  nearest x := roundRat (ratOfFloat x)
  text x :=
    match Binary.ofFloat? x with
    | some b => coordinateText b.toRat
    | none => if x < 0 then "-inf" else if 0 < x then "inf" else "nan"
  length := floatLength

end SequenceChart
