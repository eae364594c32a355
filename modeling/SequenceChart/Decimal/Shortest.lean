import SequenceChart.Decimal.Binary

namespace SequenceChart.Decimal

/-- A positive decimal number: a whole number of units that are each a power of ten. -/
structure Scientific where
  units : Nat
  exponent : Int
  deriving DecidableEq

/-- How far the reals that round to a double reach below it, in quarters of its unit. The gap
    below a power of two is half as wide as the one above, save at the smallest exponent. -/
def reachBelow (units : Nat) (exponent : Int) : Nat :=
  if units = Nat.pow 2 52 && -1074 < exponent then 1 else 2

/-- The multiple of a power of ten that reads back as the positive double with these units, if
    there is one. Of two the nearer is taken, and of two equally near the even one. The ends of
    the interval that rounds to a double belong to it if its number of units is even. -/
def onGrid? (units : Nat) (exponent : Int) (grid : Int) : Option Scientific :=
  let quarter := Nat.pow 2 (exponent - 2).toNat * Nat.pow 10 (-grid).toNat
  let step := Nat.pow 2 (2 - exponent).toNat * Nat.pow 10 grid.toNat
  let value := 4 * units * quarter
  let least := (4 * units - reachBelow units exponent) * quarter
  let greatest := (4 * units + 2) * quarter
  let readsBack (n : Nat) : Bool :=
    if units % 2 = 0 then least ≤ n * step && n * step ≤ greatest
    else least < n * step && n * step < greatest
  let below := value / step
  let gapBelow := value - below * step
  let gapAbove := (below + 1) * step - value
  let belowIsNearer := gapBelow < gapAbove || (gapBelow = gapAbove && below % 2 = 0)
  if readsBack below && (belowIsNearer || !readsBack (below + 1)) then some ⟨below, grid⟩
  else if readsBack (below + 1) then some ⟨below + 1, grid⟩
  else none

/-- The coarsest grid with a hit, searched downwards from a given power of ten. -/
def searchGrids (units : Nat) (exponent : Int) : Nat → Int → Scientific
  | 0, grid => ⟨units, grid⟩
  | steps + 1, grid =>
    match onGrid? units exponent grid with
    | some found => found
    | none => searchGrids units exponent steps (grid - 1)

/-- The decimal number with the fewest digits that reads back as a positive double. The search
    starts at a power of ten above the double, and seventeen digits are always enough. -/
def shortest (units : Nat) (exponent : Int) : Scientific :=
  searchGrids units exponent 25 (((units.log2 : Int) + exponent + 1) * 30103 / 100000 + 1)

/-- Zeros. -/
def zeros (n : Nat) : List Char :=
  List.replicate n '0'

/-- The exponent of a number in scientific form: a sign and at least two digits. -/
def exponentText (exponent : Int) : List Char :=
  let digits := (toString exponent.natAbs).toList
  (if exponent < 0 then '-' else '+') :: (zeros (2 - digits.length) ++ digits)

/-- The text of a decimal number. From one ten-thousandth up to below ten to the sixteenth it is
    positional with at least one decimal place, beyond these it has an exponent. -/
def Scientific.text (s : Scientific) : List Char :=
  let digits := (toString s.units).toList
  let point := digits.length + s.exponent
  if point < -3 || 16 < point then
    let fraction := digits.drop 1
    digits.take 1 ++ (if fraction.isEmpty then [] else '.' :: fraction) ++
      'e' :: exponentText (point - 1)
  else if point ≤ 0 then '0' :: '.' :: (zeros (-point).toNat ++ digits)
  else
    let whole := digits.take point.toNat
    let fraction := digits.drop point.toNat
    whole ++ zeros (point.toNat - digits.length) ++ '.' ::
      (if fraction.isEmpty then ['0'] else fraction)

/-- The shortest text that reads back as a double. Zero keeps its sign. -/
def shortestText (x : Float) : String :=
  match Binary.ofFloat? x with
  | some b =>
    let size := if b.units = 0 then ['0', '.', '0'] else (shortest b.units b.exponent).text
    String.ofList (if b.negative then '-' :: size else size)
  | none => if x < 0 then "-inf" else if 0 < x then "inf" else "nan"

end SequenceChart.Decimal
