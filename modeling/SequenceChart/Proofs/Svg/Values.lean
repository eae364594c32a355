import Mathlib.Tactic.SplitIfs
import SequenceChart.Proofs.Xml.Grammar
import SequenceChart.Svg.Shape
import SequenceChart.Text.Percent

namespace SequenceChart

namespace Xml

theorem isPlain_digitChar (n : Nat) : isPlain (Nat.digitChar n) := by
  by_cases hn : n < 16
  · have hall : ∀ digit ∈ List.range 16, isPlain (Nat.digitChar digit) := by decide
    exact hall n (List.mem_range.2 hn)
  · have hnone : Nat.digitChar n = '*' := by
      unfold Nat.digitChar
      iterate 16 rw [if_neg (by omega)]
    rw [hnone]
    decide

theorem isPlain_of_mem_toDigits {base n : Nat} (hbase : 1 < base) {c : Char}
    (hc : c ∈ Nat.toDigits base n) : isPlain c := by
  induction n using Nat.strongRecOn with
  | ind n ih =>
    by_cases hn : n < base
    · rw [Nat.toDigits_of_lt_base hn, List.mem_singleton] at hc
      rw [hc]
      exact isPlain_digitChar n
    · rw [Nat.toDigits_of_base_le hbase (Nat.le_of_not_lt hn), List.mem_append,
        List.mem_singleton] at hc
      obtain hc | rfl := hc
      · exact ih (n / base) (Nat.div_lt_self (by omega) hbase) hc
      · exact isPlain_digitChar _

theorem plain_toString_int (n : Int) : Plain (toString n) := by
  have hdigits (m : Nat) : Plain m.repr := by
    rw [Nat.repr_eq_ofList_toDigits, Plain, String.toList_ofList]
    exact fun c => isPlain_of_mem_toDigits (by decide)
  rw [Int.toString_eq_repr]
  cases n with
  | ofNat m => exact hdigits m
  | negSucc m => exact plain_append.2 ⟨by decide, hdigits (m + 1)⟩

end Xml

open Xml

/-- In the address of a font only plain characters stand for themselves. -/
theorem Text.plain_percentEncoded (text : String) : Plain (percentEncoded text) := by
  have hbytes : ∀ n ∈ List.range 256, (percentByte n).all isPlain := by decide +kernel
  rw [percentEncoded, Plain, String.toList_ofList, List.forall_mem_flatMap]
  exact fun byte _ => List.all_eq_true.1 (hbytes _ (List.mem_range.2 byte.toNat_lt))

/-- A colour is written with a number sign, signs and hexadecimal digits. -/
theorem Color.plain_toHex {α : Type} (color : Color α) : Plain color.toHex := by
  have hdigits (width n : Nat) : ∀ c ∈ Text.hexDigits width n, isPlain c := by
    intro c hc
    obtain hc | hc := List.mem_append.1 hc
    · rw [List.eq_of_mem_replicate hc]
      decide
    · exact isPlain_of_mem_toDigits (by decide) hc
  have hchannel (value : Int) : ∀ c ∈ channelHex value, isPlain c := by
    unfold channelHex
    split
    · exact List.forall_mem_cons.2 ⟨by decide, hdigits 1 _⟩
    · exact hdigits 2 _
  rw [toHex, Plain, String.toList_ofList]
  simp only [List.forall_mem_cons, List.forall_mem_append]
  exact ⟨by decide, ⟨hchannel _, hchannel _⟩, hchannel _⟩

/-- A coordinate is written with a sign, digits and a point. -/
theorem Decimal.plain_coordinateText (x : Rat) : Plain (coordinateText x) := by
  have hcents (cents : Nat) : ∀ c ∈ centsText cents, isPlain c := by
    have hpoint : isPlain '.' := by decide
    unfold centsText
    split_ifs <;> simp [hpoint, isPlain_digitChar]
  have hsign (n : Int) : ∀ c ∈ (if n < 0 then ['-'] else []), isPlain c := by
    split
    · exact List.forall_mem_singleton.2 (by decide)
    · exact List.forall_mem_nil _
  rw [coordinateText, Plain, String.toList_ofList, hundredthsText]
  simp only [List.forall_mem_append]
  exact ⟨⟨hsign _, fun c => isPlain_of_mem_toDigits (by decide)⟩, hcents _⟩

theorem Coordinate.plain_text_rat (x : Rat) : Plain (Coordinate.text x) :=
  Decimal.plain_coordinateText x

theorem Coordinate.plain_text_float (x : Float) : Plain (Coordinate.text x) := by
  simp only [Coordinate.text]
  split
  · exact Decimal.plain_coordinateText _
  · split_ifs <;> decide

end SequenceChart
