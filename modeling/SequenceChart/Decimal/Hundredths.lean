import SequenceChart.Decimal.Rounding

namespace SequenceChart.Decimal

/-- A number in whole hundredths. A half goes to the even neighbour. -/
def hundredths (x : Rat) : Int :=
  roundRat (x * 100)

/-- The decimal places of a number of hundredths below one hundred, without final zeros and, if
    none are left, without the point. -/
def centsText (cents : Nat) : List Char :=
  if cents = 0 then []
  else if cents % 10 = 0 then ['.', Nat.digitChar (cents / 10)]
  else ['.', Nat.digitChar (cents / 10), Nat.digitChar (cents % 10)]

/-- The text of a number of hundredths. Zero has no sign. -/
def hundredthsText (n : Int) : List Char :=
  (if n < 0 then ['-'] else []) ++ Nat.toDigits 10 (n.natAbs / 100) ++ centsText (n.natAbs % 100)

/-- The text of a coordinate: a decimal number with at most two places. -/
def coordinateText (x : Rat) : String :=
  String.ofList (hundredthsText (hundredths x))

end SequenceChart.Decimal
