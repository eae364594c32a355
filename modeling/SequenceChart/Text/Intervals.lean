namespace SequenceChart.Text

/-- Membership in a set of code points given as ascending closed intervals. The search stops at
    the first interval that starts above the point. -/
def covers : List (Nat × Nat) → Nat → Bool
  | [], _ => false
  | (low, high) :: rest, n => if n < low then false else n ≤ high || covers rest n

end SequenceChart.Text
