import Mathlib.Algebra.Order.Field.Basic
import Mathlib.Data.Rat.Cast.Order
import SequenceChart.Coordinate
import SequenceChart.Proofs.Text.Trimmed
import SequenceChart.Proofs.Decimal.Rounding

namespace SequenceChart.Decimal

open Text

/-- A decimal digit other than zero. -/
def IsNonzeroDigit (c : Char) : Prop :=
  c.isDigit ∧ c ≠ '0'

/-- The digits in front of a decimal point: a zero, or digits of which the first is none. -/
inductive Whole : List Char → Prop where
  | zero : Whole ['0']
  | nonzero {first : Char} {rest : List Char} (hfirst : IsNonzeroDigit first)
      (hrest : ∀ c ∈ rest, c.isDigit) : Whole (first :: rest)

/-- At most two decimal places behind a point, of which the last is no zero. -/
inductive Places : List Char → Prop where
  | none : Places []
  | one {last : Char} (hlast : IsNonzeroDigit last) : Places ['.', last]
  | two {first last : Char} (hfirst : first.isDigit) (hlast : IsNonzeroDigit last) :
      Places ['.', first, last]

/-- A decimal number in its only form, save that zero might have a sign. -/
def IsDecimal (text : String) : Prop :=
  ∃ sign whole places, text.toList = sign ++ whole ++ places ∧ sign ∈ [[], ['-']] ∧ Whole whole ∧
    Places places

/-- The number that digits stand for, some of which may follow a decimal point. -/
def magnitude (cs : List Char) : ℚ :=
  let places := (cs.dropWhile Char.isDigit).drop 1
  Nat.ofDigitChars 10 (cs.takeWhile Char.isDigit) 0 +
    Nat.ofDigitChars 10 places 0 / 10 ^ places.length

/-- The number that a decimal text stands for. -/
def valueOf (text : String) : ℚ :=
  match text.toList with
  | '-' :: cs => -magnitude cs
  | cs => magnitude cs

theorem isNonzeroDigit_digitChar {n : Nat} (hpos : 0 < n) (hn : n < 10) :
    IsNonzeroDigit (Nat.digitChar n) := by
  refine ⟨by rw [Nat.isDigit_digitChar]; exact decide_eq_true hn, fun hzero => ?_⟩
  have hvalue := Nat.toNat_digitChar_of_lt_ten hn
  rw [hzero] at hvalue
  have hzero : '0'.toNat = 48 := rfl
  omega

theorem isDigit_toDigits (n : Nat) : ∀ c ∈ Nat.toDigits 10 n, c.isDigit := fun _ =>
  Nat.isDigit_of_mem_toDigits (by decide) (by decide)

/-- The digits of a number other than zero do not start with a zero. -/
theorem whole_toDigits (n : Nat) : Whole (Nat.toDigits 10 n) := by
  induction n using Nat.strongRecOn with
  | ind n ih =>
    by_cases hn : n < 10
    · rw [Nat.toDigits_of_lt_base hn]
      obtain rfl | hpos := Nat.eq_zero_or_pos n
      · exact .zero
      · exact .nonzero (isNonzeroDigit_digitChar hpos hn) (List.forall_mem_nil _)
    · have hle : 10 ≤ n := Nat.le_of_not_lt hn
      have hfront := ih (n / 10) (Nat.div_lt_self (by omega) (by decide))
      have hread : Nat.ofDigitChars 10 (Nat.toDigits 10 (n / 10)) 0 = n / 10 :=
        Nat.ofDigitChars_toDigits (by decide) (by decide)
      have hlast : (Nat.digitChar (n % 10)).isDigit := by
        rw [Nat.isDigit_digitChar]
        exact decide_eq_true (Nat.mod_lt n (by decide))
      rw [Nat.toDigits_of_base_le (by decide) hle]
      generalize Nat.toDigits 10 (n / 10) = front at hfront hread ⊢
      cases hfront with
      | zero =>
        have hzero : n / 10 = 0 := hread.symm.trans (by decide)
        omega
      | nonzero hfirst hrest =>
        exact .nonzero hfirst (List.forall_mem_append.2 ⟨hrest, List.forall_mem_singleton.2 hlast⟩)

/-- The decimal places of a number of hundredths below one hundred. -/
theorem places_centsText {cents : Nat} (hcents : cents < 100) : Places (centsText cents) := by
  unfold centsText
  split_ifs with hzero hten
  · exact .none
  · exact .one (isNonzeroDigit_digitChar (by omega) (by omega))
  · refine .two ?_ (isNonzeroDigit_digitChar (by omega) (by omega))
    rw [Nat.isDigit_digitChar]
    exact decide_eq_true (by omega)

theorem magnitude_append {whole places : List Char} (hwhole : ∀ c ∈ whole, c.isDigit)
    (hplaces : Places places) :
    magnitude (whole ++ places) = Nat.ofDigitChars 10 whole 0 +
      Nat.ofDigitChars 10 (places.drop 1) 0 / 10 ^ (places.drop 1).length := by
  have hpoint : places.takeWhile Char.isDigit = [] ∧ places.dropWhile Char.isDigit = places := by
    cases hplaces <;> exact ⟨rfl, rfl⟩
  rw [magnitude, List.takeWhile_append_of_pos hwhole, List.dropWhile_append_of_pos hwhole, hpoint.1,
    hpoint.2, List.append_nil]

theorem value_centsText {cents : Nat} (hcents : cents < 100) :
    (Nat.ofDigitChars 10 ((centsText cents).drop 1) 0 : ℚ) / 10 ^ ((centsText cents).drop 1).length =
      cents / 100 := by
  have hdigit {n : Nat} (hn : n < 10) : (Nat.digitChar n).toNat - '0'.toNat = n := by
    rw [Nat.toNat_digitChar_of_lt_ten hn]
    exact Nat.add_sub_cancel_left ..
  have htens : cents / 10 < 10 := by omega
  unfold centsText
  split_ifs with hzero hten
  · simp [hzero]
  · have hcast : (10 * (cents / 10 : ℕ) : ℚ) = cents := by exact_mod_cast (show _ by omega)
    simp only [List.drop_one, List.tail_cons, Nat.ofDigitChars_cons, hdigit htens]
    simp [← hcast]
    ring
  · have hcast : (10 * (cents / 10 : ℕ) + (cents % 10 : ℕ) : ℚ) = cents := by
      exact_mod_cast Nat.div_add_mod cents 10
    simp only [List.drop_one, List.tail_cons, Nat.ofDigitChars_cons, hdigit htens,
      hdigit (Nat.mod_lt cents (show 0 < 10 by decide))]
    simp [← hcast]
    ring

theorem magnitude_hundredths (n : Nat) :
    magnitude (Nat.toDigits 10 (n / 100) ++ centsText (n % 100)) = n / 100 := by
  have hcents : n % 100 < 100 := Nat.mod_lt _ (by decide)
  have hsplit : (100 * (n / 100 : ℕ) + (n % 100 : ℕ) : ℚ) = n := by exact_mod_cast Nat.div_add_mod n 100
  rw [magnitude_append (isDigit_toDigits _) (places_centsText hcents), value_centsText hcents,
    Nat.ofDigitChars_toDigits (by decide) (by decide), ← hsplit]
  ring

theorem head?_toDigits_ne (n : Nat) (rest : List Char) :
    ∀ cs, Nat.toDigits 10 n ++ rest ≠ '-' :: cs := by
  intro cs heq
  obtain ⟨first, tail, hdigits⟩ := List.exists_cons_of_ne_nil (Nat.toDigits_ne_nil (n := n) (b := 10))
  have hfirst := isDigit_toDigits n first (hdigits ▸ List.mem_cons_self)
  rw [hdigits, List.cons_append] at heq
  rw [(List.cons.inj heq).1] at hfirst
  exact absurd hfirst (by decide)

/-- The text of a number of hundredths stands for it. -/
theorem valueOf_hundredthsText (n : ℤ) : valueOf (String.ofList (hundredthsText n)) = n / 100 := by
  rw [valueOf, String.toList_ofList, hundredthsText, List.append_assoc]
  by_cases hneg : n < 0
  · have hcast : (n.natAbs : ℚ) = -n := by
      rw [Nat.cast_natAbs, abs_of_neg hneg, Int.cast_neg]
    rw [if_pos hneg]
    change -magnitude (Nat.toDigits 10 (n.natAbs / 100) ++ centsText (n.natAbs % 100)) = _
    rw [magnitude_hundredths, hcast, neg_div, neg_neg]
  · have hcast : (n.natAbs : ℚ) = n := by
      rw [Nat.cast_natAbs, abs_of_nonneg (not_lt.1 hneg)]
    rw [if_neg hneg, List.nil_append]
    split
    · next heq => exact absurd heq (head?_toDigits_ne _ _ _)
    · rw [magnitude_hundredths, hcast]

theorem isDecimal_hundredthsText (n : ℤ) : IsDecimal (String.ofList (hundredthsText n)) := by
  refine ⟨if n < 0 then ['-'] else [], Nat.toDigits 10 (n.natAbs / 100), centsText (n.natAbs % 100),
    String.toList_ofList, ?_, whole_toDigits _, places_centsText (Nat.mod_lt _ (by decide))⟩
  split <;> simp

/-- A number of hundredths with two decimal places, whatever they are. Zero may have a sign. -/
def fixedText (negative : Bool) (size : Nat) : List Char :=
  (if negative then ['-'] else []) ++ Nat.toDigits 10 (size / 100) ++
    ['.', Nat.digitChar (size % 100 / 10), Nat.digitChar (size % 10)]

/-- A text without its final zeros and then without a final point. -/
def stripped (text : List Char) : List Char :=
  trimEnd (· = '.') (trimEnd (· = '0') text)

/-- A text that is not zero with a sign. -/
def unsignedZero (text : List Char) : List Char :=
  if text = ['-', '0'] then ['0'] else text

theorem rdropWhile_point (front : List Char) {c : Char} (hc : c.isDigit) :
    (front ++ [c]).rdropWhile (· = '.') = front ++ [c] := by
  refine List.rdropWhile_concat_neg _ _ _ fun heq => ?_
  rw [of_decide_eq_true heq] at hc
  exact absurd hc (by decide)

theorem rdropWhile_zero (front : List Char) {c : Char} (hc : IsNonzeroDigit c) :
    (front ++ [c]).rdropWhile (· = '0') = front ++ [c] :=
  List.rdropWhile_concat_neg _ _ _ fun heq => hc.2 (of_decide_eq_true heq)

/-- Of two decimal places those go that are not needed. -/
theorem stripped_fixedText (negative : Bool) (size : Nat) :
    stripped (fixedText negative size) =
      (if negative then ['-'] else []) ++ Nat.toDigits 10 (size / 100) ++ centsText (size % 100) := by
  rw [fixedText, stripped, centsText, trimEnd_eq_rdropWhile, trimEnd_eq_rdropWhile]
  have hfront : ((if negative then ['-'] else []) ++ Nat.toDigits 10 (size / 100)).rdropWhile (· = '.') =
      (if negative then ['-'] else []) ++ Nat.toDigits 10 (size / 100) := by
    obtain ⟨digits, last, hdigits⟩ :=
      (List.eq_nil_or_concat' (Nat.toDigits 10 (size / 100))).resolve_left Nat.toDigits_ne_nil
    have hlast := isDigit_toDigits (size / 100) last (by simp [hdigits])
    rw [hdigits, ← List.append_assoc, rdropWhile_point _ hlast]
  generalize (if negative then ['-'] else []) ++ Nat.toDigits 10 (size / 100) = front at hfront ⊢
  have htwo (a b : Char) : front ++ ['.', a, b] = front ++ ['.'] ++ [a] ++ [b] := by simp
  have hunits : size % 100 % 10 = size % 10 := by omega
  rw [htwo, hunits]
  by_cases hone : size % 10 = 0
  · have hlast : Nat.digitChar (size % 10) = '0' := by rw [hone]; rfl
    rw [hlast, List.rdropWhile_concat_pos _ _ _ (by decide)]
    by_cases hten : size % 100 / 10 = 0
    · have hfirst : Nat.digitChar (size % 100 / 10) = '0' := by rw [hten]; rfl
      rw [hfirst, List.rdropWhile_concat_pos _ _ _ (by decide),
        List.rdropWhile_concat_neg _ _ _ (by decide), List.rdropWhile_concat_pos _ _ _ (by decide),
        hfront, if_pos (by omega), List.append_nil]
    · have hfirst := isNonzeroDigit_digitChar (Nat.pos_of_ne_zero hten) (by omega)
      rw [rdropWhile_zero _ hfirst, rdropWhile_point _ hfirst.1, if_neg (by omega), if_pos hone,
        List.append_assoc]
      rfl
  · have hlast := isNonzeroDigit_digitChar (Nat.pos_of_ne_zero hone) (Nat.mod_lt size (by decide))
    rw [rdropWhile_zero _ hlast, rdropWhile_point _ hlast.1, if_neg (by omega), if_neg hone]
    simp

/-- A text of hundredths is what is left of one with two places, and has no sign if it is zero. -/
theorem hundredthsText_eq_stripped (negative : Bool) (size : Nat) :
    hundredthsText (if negative then -(size : ℤ) else size) =
      unsignedZero (stripped (fixedText negative size)) := by
  rw [unsignedZero, stripped_fixedText, hundredthsText, List.append_assoc, List.append_assoc]
  cases negative with
  | false =>
    have hsign : ¬ ((size : ℤ) < 0) := by omega
    simp only [Bool.false_eq_true, if_false, hsign, Int.natAbs_natCast, List.nil_append,
      head?_toDigits_ne]
  | true =>
    simp only [if_true, Int.natAbs_neg, Int.natAbs_natCast, List.singleton_append, List.cons.injEq,
      true_and]
    obtain rfl | hpos := Nat.eq_zero_or_pos size
    · rfl
    · have hdigits : Nat.toDigits 10 (size / 100) ++ centsText (size % 100) ≠ ['0'] := by
        intro heq
        have hvalue := magnitude_hundredths size
        have hzero : magnitude ['0'] = 0 := by decide +kernel
        rw [heq, hzero, eq_comm, div_eq_zero_iff, or_iff_left (by norm_num)] at hvalue
        exact hpos.ne' (by exact_mod_cast hvalue)
      rw [if_neg hdigits, if_pos (by omega)]
      rfl

theorem hundredths_roundsTo (x : ℚ) : RoundsTo (x * 100) (hundredths x) :=
  roundRat_roundsTo (x * 100)

theorem valueOf_coordinateText (x : ℚ) : valueOf (coordinateText x) = hundredths x / 100 :=
  valueOf_hundredthsText _

/-- Numbers are written alike exactly if they round to the same number of hundredths. -/
theorem coordinateText_eq_iff {x y : ℚ} :
    coordinateText x = coordinateText y ↔ hundredths x = hundredths y := by
  constructor
  · intro heq
    have hvalue := congrArg valueOf heq
    rw [valueOf_coordinateText, valueOf_coordinateText, div_left_inj' (by norm_num)] at hvalue
    exact_mod_cast hvalue
  · intro heq
    rw [coordinateText, coordinateText, heq]

theorem coordinateText_ne_minusZero (x : ℚ) : coordinateText x ≠ "-0" := by
  intro heq
  have hvalue : valueOf "-0" = hundredths x / 100 := by rw [← heq, valueOf_coordinateText]
  have hzero : valueOf "-0" = 0 := by decide +kernel
  rw [hzero, eq_comm, div_eq_zero_iff, or_iff_left (by norm_num)] at hvalue
  have hn : hundredths x = 0 := by exact_mod_cast hvalue
  rw [coordinateText, hn] at heq
  exact absurd heq (by decide)

/-- Rounding keeps a number on its side of zero. -/
theorem hundredths_eq_sign (x : ℚ) :
    hundredths x = if decide (x < 0) then -((hundredths x).natAbs : ℤ) else (hundredths x).natAbs := by
  obtain ⟨hlow, hhigh⟩ := abs_le.1 (hundredths_roundsTo x).near
  by_cases hneg : x < 0
  · have hle : hundredths x ≤ 0 := by
      by_contra hpos
      have hone : (1 : ℚ) ≤ hundredths x := by exact_mod_cast not_le.1 hpos
      linarith
    rw [decide_eq_true hneg, if_pos rfl]
    omega
  · have hnonneg : 0 ≤ hundredths x := by
      by_contra hpos
      have hone : (hundredths x : ℚ) ≤ -1 := by exact_mod_cast Int.le_sub_one_of_lt (not_le.1 hpos)
      linarith
    rw [decide_eq_false hneg, if_neg (by decide)]
    omega

/-- The one decimal number with at most two places that stands for the nearest hundredth of a number,
    of two that are equally near for the even one. So it is not further than half a hundredth from its
    number, numbers share it exactly if they share a nearest hundredth, and the number that it stands
    for has the same text again. It is what is left of two decimal places when final zeros and a final
    point go. Doubles are written as what they are exactly. -/
structure Canonical (x : ℚ) (text : String) : Prop where
  decimal : IsDecimal text
  unsigned : text ≠ "-0"
  nearest : ∃ n : ℤ, RoundsTo (x * 100) n ∧ valueOf text = n / 100
  near : |valueOf text - x| ≤ 1 / 200
  shared : ∀ y : ℚ, text = Coordinate.text y ↔ ∃ n : ℤ, RoundsTo (x * 100) n ∧ RoundsTo (y * 100) n
  again : Coordinate.text (valueOf text) = text
  stripped : text.toList = unsignedZero (stripped (fixedText (x < 0) (hundredths x).natAbs))
  double : ∀ v : Float, ∀ b ∈ Binary.ofFloat? v, b.toRat = x → Coordinate.text v = text

/-- Every coordinate has a canonical text. -/
theorem coordinateText_canonical (x : ℚ) : Canonical x (Coordinate.text x) := by
  have hround := hundredths_roundsTo x
  have hvalue : valueOf (Coordinate.text x) = hundredths x / 100 := valueOf_coordinateText x
  constructor
  case decimal => exact isDecimal_hundredthsText _
  case unsigned => exact coordinateText_ne_minusZero x
  case nearest => exact ⟨_, hround, hvalue⟩
  case near =>
    have hscale : (hundredths x : ℚ) / 100 - x = -((x * 100 - hundredths x) / 100) := by ring
    rw [hvalue, hscale, abs_neg, abs_div, abs_of_pos (show (0 : ℚ) < 100 by norm_num)]
    linarith [hround.near]
  case shared =>
    refine fun y => coordinateText_eq_iff.trans ⟨fun heq => ?_, fun ⟨n, hx, hy⟩ => ?_⟩
    · exact ⟨hundredths x, hround, heq ▸ hundredths_roundsTo y⟩
    · rw [hround.unique hx, (hundredths_roundsTo y).unique hy]
  case again =>
    refine coordinateText_eq_iff.2 ?_
    rw [hvalue]
    refine (hundredths_roundsTo _).unique ?_
    rw [div_mul_cancel₀ _ (by norm_num)]
    exact roundsTo_intCast _
  case stripped =>
    have htext : (Coordinate.text x).toList = hundredthsText (hundredths x) := String.toList_ofList
    rw [htext, hundredths_eq_sign x]
    exact (hundredthsText_eq_stripped _ _).trans (by rw [← hundredths_eq_sign x])
  case double =>
    rintro v b hb rfl
    simp only [Coordinate.text, Option.mem_def.1 hb]

end SequenceChart.Decimal
