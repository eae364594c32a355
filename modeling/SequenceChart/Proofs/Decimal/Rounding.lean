import Mathlib.Algebra.Order.Field.Rat
import Mathlib.Algebra.Order.Ring.Abs
import Mathlib.Tactic.Ring
import Mathlib.Tactic.Linarith
import SequenceChart.Decimal.Rounding

namespace SequenceChart.Decimal

/-- An integer that no other one is nearer to a number than, and the even one of two that are
    equally near. -/
structure RoundsTo (x : ℚ) (n : ℤ) : Prop where
  near : |x - n| ≤ 1 / 2
  even : |x - n| = 1 / 2 → n % 2 = 0

theorem roundsTo_intCast (n : ℤ) : RoundsTo n n := by
  constructor <;> norm_num

/-- No number rounds to two integers: they would be neighbours, and both even. -/
theorem RoundsTo.unique {x : ℚ} {m n : ℤ} (hm : RoundsTo x m) (hn : RoundsTo x n) : m = n := by
  by_contra hne
  wlog hlt : m < n generalizing m n
  · exact this hn hm (Ne.symm hne) (by omega)
  have hgap : (m : ℚ) + 1 ≤ n := by exact_mod_cast hlt
  have hlow := (abs_le.1 hm.near).2
  have hhigh := (abs_le.1 hn.near).1
  have hx : x - m = 1 / 2 := by linarith
  have hx' : x - n = -(1 / 2) := by linarith
  have hstep : n = m + 1 := by
    have hcast : (n : ℚ) = (m : ℚ) + 1 := by linarith
    exact_mod_cast hcast
  have hmEven := hm.even (by rw [hx]; norm_num)
  have hnEven := hn.even (by rw [hx']; norm_num)
  omega

/-- Rounding does not pass an integer. -/
theorem RoundsTo.le_of_le {x : ℚ} {m n : ℤ} (hn : RoundsTo x n) (hle : x ≤ m) : n ≤ m := by
  by_contra hlt
  have hstep : (m : ℚ) + 1 ≤ n := by exact_mod_cast (show m + 1 ≤ n by omega)
  have hnear := (abs_le.1 hn.near).1
  linarith

theorem RoundsTo.ge_of_ge {x : ℚ} {m n : ℤ} (hn : RoundsTo x n) (hge : m ≤ x) : m ≤ n := by
  by_contra hlt
  have hstep : (n : ℚ) + 1 ≤ m := by exact_mod_cast (show n + 1 ≤ m by omega)
  have hnear := (abs_le.1 hn.near).2
  linarith

section Quotient

variable {x share : ℚ} {below : ℤ}

theorem roundsTo_below (hsplit : x = below + share) (hnonneg : 0 ≤ share) (hshare : share < 1 / 2) :
    RoundsTo x below := by
  have habs : |x - below| = share := by
    rw [hsplit, add_sub_cancel_left, abs_of_nonneg hnonneg]
  exact ⟨by rw [habs]; exact hshare.le, fun hhalf => absurd (habs.symm.trans hhalf) hshare.ne⟩

theorem roundsTo_above (hsplit : x = below + share) (hshare : 1 / 2 < share) (hlt : share < 1) :
    RoundsTo x (below + 1 : ℤ) := by
  have habs : |x - (below + 1 : ℤ)| = 1 - share := by
    rw [hsplit, abs_of_nonpos (by push_cast; linarith)]
    push_cast
    ring
  exact ⟨by rw [habs]; linarith, fun hhalf => by rw [habs] at hhalf; linarith⟩

theorem roundsTo_half (hsplit : x = below + 1 / 2) {n : ℤ} (hn : n = below ∨ n = below + 1)
    (heven : n % 2 = 0) : RoundsTo x n := by
  have habs : |x - n| = 1 / 2 := by
    obtain rfl | rfl := hn
    · rw [hsplit, add_sub_cancel_left]
      norm_num
    · rw [hsplit]
      push_cast
      rw [add_sub_add_left_eq_sub]
      norm_num
  exact ⟨habs.le, fun _ => heven⟩

end Quotient

/-- The nearest integer to a quotient is told by twice the remainder. -/
theorem roundQuotient_roundsTo (numerator : ℤ) {denominator : Nat} (hpos : 0 < denominator) :
    RoundsTo ((numerator : ℚ) / denominator) (roundQuotient numerator denominator) := by
  have hd : (0 : ℚ) < denominator := by exact_mod_cast hpos
  have hint : (denominator : ℤ) * (numerator / denominator) + numerator % denominator = numerator :=
    Int.mul_ediv_add_emod ..
  have hnonneg : 0 ≤ numerator % (denominator : ℤ) := Int.emod_nonneg _ (by omega)
  have hlt : numerator % (denominator : ℤ) < denominator := Int.emod_lt_of_pos _ (by omega)
  rw [roundQuotient]
  generalize numerator / (denominator : ℤ) = below at hint ⊢
  generalize numerator % (denominator : ℤ) = rest at hint hnonneg hlt ⊢
  have hsplit : (numerator : ℚ) / denominator = below + rest / denominator := by
    have hcast : (denominator : ℚ) * below + rest = numerator := by exact_mod_cast hint
    rw [← hcast, add_div, mul_div_cancel_left₀ _ hd.ne']
  have hshare : (0 : ℚ) ≤ rest / denominator ∧ (rest : ℚ) / denominator < 1 := by
    rw [le_div_iff₀ hd, div_lt_iff₀ hd, zero_mul, one_mul]
    exact_mod_cast And.intro hnonneg hlt
  split_ifs with hsmall hlarge heven
  · refine roundsTo_below hsplit hshare.1 ?_
    rw [div_lt_div_iff₀ hd (by norm_num), one_mul, mul_comm]
    exact_mod_cast hsmall
  · refine roundsTo_above hsplit ?_ hshare.2
    rw [div_lt_div_iff₀ (by norm_num) hd, one_mul, mul_comm]
    exact_mod_cast hlarge
  all_goals
    have hhalf : (rest : ℚ) / denominator = 1 / 2 := by
      have htwice : (2 : ℚ) * rest = denominator := by
        exact_mod_cast (show 2 * rest = (denominator : ℤ) by omega)
      rw [← htwice, div_eq_div_iff (by linarith) (by norm_num)]
      ring
    rw [hhalf] at hsplit
  · exact roundsTo_half hsplit (.inl rfl) heven
  · exact roundsTo_half hsplit (.inr rfl) (by omega)

theorem roundRat_roundsTo (x : ℚ) : RoundsTo x (roundRat x) := by
  have hround := roundQuotient_roundsTo x.num x.den_pos
  rwa [Rat.num_div_den] at hround

end SequenceChart.Decimal
