import Mathlib.Algebra.Order.Field.Basic
import Mathlib.Order.Interval.Set.UnorderedInterval
import Mathlib.Tactic.Positivity
import SequenceChart.Proofs.Color.Spelled
import SequenceChart.Proofs.Decimal.Rounding

namespace SequenceChart

open Decimal

/-- A number between two integers, in whichever order they are given, rounds to one between them. -/
theorem Decimal.roundRat_mem_uIcc {x : ℚ} {a b : ℤ} (hx : x ∈ Set.uIcc (a : ℚ) b) :
    roundRat x ∈ Set.uIcc a b := by
  have hround := roundRat_roundsTo x
  rw [Set.mem_uIcc] at hx ⊢
  obtain ⟨hlow, hhigh⟩ | ⟨hlow, hhigh⟩ := hx
  · exact .inl ⟨hround.ge_of_ge hlow, hround.le_of_le hhigh⟩
  · exact .inr ⟨hround.ge_of_ge hlow, hround.le_of_le hhigh⟩

namespace Color

/-- A colour between two others: its channels and its opacity lie between theirs. -/
structure Between (first second color : Color ℚ) : Prop where
  red : color.red ∈ Set.uIcc first.red second.red
  green : color.green ∈ Set.uIcc first.green second.green
  blue : color.blue ∈ Set.uIcc first.blue second.blue
  alpha : color.alpha ∈ Set.uIcc first.alpha second.alpha

theorem Proper.of_between {first second color : Color ℚ} (hfirst : first.Proper)
    (hsecond : second.Proper) (hbetween : Between first second color) : color.Proper := by
  have hinside {β : Type} [Lattice β] {low high a b x : β} (ha : low ≤ a ∧ a ≤ high)
      (hb : low ≤ b ∧ b ≤ high) (hx : x ∈ Set.uIcc a b) : low ≤ x ∧ x ≤ high :=
    Set.uIcc_subset_Icc ha hb hx
  constructor
  · exact hinside hfirst.red hsecond.red hbetween.red
  · exact hinside hfirst.green hsecond.green hbetween.green
  · exact hinside hfirst.blue hsecond.blue hbetween.blue
  · exact hinside hfirst.alpha hsecond.alpha hbetween.alpha

section Share

variable {share : ℚ}

theorem weighted_mem_uIcc (hlow : 0 ≤ share) (hhigh : share ≤ 1) (a b : ℚ) :
    a * share + b * (1 - share) ∈ Set.uIcc a b := by
  rw [Set.mem_uIcc]
  obtain hab | hba := le_total a b
  · have hleft := mul_le_mul_of_nonneg_right hab hlow
    have hright := mul_le_mul_of_nonneg_right hab (sub_nonneg.2 hhigh)
    exact .inl ⟨by linarith, by linarith⟩
  · have hleft := mul_le_mul_of_nonneg_right hba hlow
    have hright := mul_le_mul_of_nonneg_right hba (sub_nonneg.2 hhigh)
    exact .inr ⟨by linarith, by linarith⟩

/-- A blended channel lies between both, though it is rounded. -/
theorem blend_mem_uIcc (hlow : 0 ≤ share) (hhigh : share ≤ 1) (a b : ℤ) :
    blend share a b ∈ Set.uIcc a b :=
  roundRat_mem_uIcc (weighted_mem_uIcc hlow hhigh a b)

/-- Blending a share of one channel is blending the rest of the other one. -/
theorem blend_comm (share : ℚ) (a b : ℤ) : blend share a b = blend (1 - share) b a := by
  have hsame : (a : ℚ) * share + b * (1 - share) = b * (1 - share) + a * (1 - (1 - share)) := by
    ring
  exact congrArg roundRat hsame

theorem blend_zero (a b : ℤ) : blend (0 : ℚ) a b = b := by
  have hsame : (a : ℚ) * 0 + b * (1 - 0) = b := by ring
  exact (congrArg roundRat hsame).trans ((roundRat_roundsTo b).unique (roundsTo_intCast b))

end Share

/-- A mixture of two colours lies between them, whichever percentage is taken. -/
theorem mix_between (color other : Color ℚ) {percent : ℚ} (hlow : 0 ≤ percent)
    (hhigh : percent ≤ 100) : Between color other (color.mix other percent) := by
  have hshare : 0 ≤ percent / 100 ∧ percent / 100 ≤ 1 := by
    constructor
    · positivity
    · rw [div_le_one (by norm_num)]
      exact hhigh
  constructor
  · exact blend_mem_uIcc hshare.1 hshare.2 ..
  · exact blend_mem_uIcc hshare.1 hshare.2 ..
  · exact blend_mem_uIcc hshare.1 hshare.2 ..
  · exact weighted_mem_uIcc hshare.1 hshare.2 ..

/-- A percentage of one colour mixed into another is the rest of that one mixed into the first. -/
theorem mix_comm (color other : Color ℚ) (percent : ℚ) :
    color.mix other percent = other.mix color (100 - percent) := by
  have hshare : (100 - percent) / 100 = 1 - percent / 100 := by
    rw [sub_div, div_self (by norm_num)]
  simp only [mix, hshare, ← blend_comm]
  congr 1
  ring

theorem mix_zero (color other : Color ℚ) : color.mix other 0 = other := by
  have hshare : (0 : ℚ) / 100 = 0 := zero_div _
  simp only [mix, hshare, blend_zero]
  congr 1
  ring

theorem mix_hundred (color other : Color ℚ) : color.mix other 100 = color := by
  rw [mix_comm, sub_self, mix_zero]

/-- A documented colour is read with its channels and its opacity in range. -/
theorem Documented.proper {text : String} (htext : Documented text) {color : Color ℚ}
    (hcolor : ofHex text = .ok color) : color.Proper := by
  rw [(ofHex_eq_ok_iff.1 hcolor).proper_iff]
  intro pair hpair hminus
  have hdigit := htext.2 _ (mem_hexPieces_iff.1 (mem_of_mem_pairs hpair).1)
  exact absurd hminus hdigit.spec.2.2.2.2

/-- A colour in range is written with six digits. -/
theorem Proper.isHexText {color : Color ℚ} (hcolor : color.Proper) : IsHexText color.toHex := by
  have hchannel {value : ℤ} (hvalue : 0 ≤ value ∧ value ≤ 255) :
      (channelHex value).length = 2 ∧ ∀ c ∈ channelHex value, IsSmallHexDigit c := by
    have hlow : -16 < value := by omega
    have hhigh : value < 256 := by omega
    obtain ⟨first, second, htext, -, -, hsmall⟩ := channelHex_spec hlow hhigh
    rw [htext]
    exact ⟨rfl, hsmall.1 hvalue.1⟩
  obtain ⟨hredLength, hred⟩ := hchannel hcolor.red
  obtain ⟨hgreenLength, hgreen⟩ := hchannel hcolor.green
  obtain ⟨hblueLength, hblue⟩ := hchannel hcolor.blue
  refine ⟨_, String.toList_ofList, ?_, ?_⟩
  · simp only [List.length_append]
    omega
  · simp only [List.forall_mem_append]
    exact ⟨⟨hred, hgreen⟩, hblue⟩

end Color

end SequenceChart
