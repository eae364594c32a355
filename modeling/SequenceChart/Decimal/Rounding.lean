namespace SequenceChart.Decimal

/-- The integer nearest to a quotient. A half goes to the even neighbour. -/
def roundQuotient (numerator : Int) (denominator : Nat) : Int :=
  let below := numerator / denominator
  let twice := 2 * (numerator % denominator)
  if twice < denominator then below
  else if denominator < twice then below + 1
  else if below % 2 = 0 then below
  else below + 1

/-- The integer nearest to a rational number. A half goes to the even neighbour. -/
def roundRat (x : Rat) : Int :=
  roundQuotient x.num x.den

end SequenceChart.Decimal
