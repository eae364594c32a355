namespace SequenceChart.Decimal

/-- The exact value of a finite double: a sign, and a whole number of units that are each a power
    of two. -/
structure Binary where
  negative : Bool
  units : Nat
  exponent : Int
  deriving DecidableEq

/-- The exact value of a double, unless it is infinite or no number. -/
def Binary.ofFloat? (x : Float) : Option Binary :=
  let bits := x.toBits.toNat
  let negative : Bool := bits / Nat.pow 2 63 = 1
  let field : Nat := bits / Nat.pow 2 52 % Nat.pow 2 11
  let fraction : Nat := bits % Nat.pow 2 52
  if field = 2047 then none
  else if field = 0 then some ⟨negative, fraction, -1074⟩
  else some ⟨negative, Nat.pow 2 52 + fraction, (field : Int) - 1075⟩

/-- A whole number times a power of two. -/
def scaleByTwo (n : Int) (exponent : Int) : Rat :=
  if 0 ≤ exponent then Rat.ofInt (n * Nat.pow 2 exponent.toNat)
  else mkRat n (Nat.pow 2 (-exponent).toNat)

/-- The value as a rational number. -/
def Binary.toRat (b : Binary) : Rat :=
  scaleByTwo (if b.negative then -(b.units : Int) else b.units) b.exponent

/-- The value as a rational number, which is zero for what is not finite. -/
def ratOfFloat (x : Float) : Rat :=
  ((Binary.ofFloat? x).map Binary.toRat).getD 0

end SequenceChart.Decimal
