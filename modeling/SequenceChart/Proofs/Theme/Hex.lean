import SequenceChart.Proofs.Text.Trimmed
import SequenceChart.Proofs.Theme.Rejected

namespace SequenceChart

open Text

/-- A hexadecimal digit of the basic Latin script, in either case. -/
def Text.IsHexDigit (c : Char) : Prop :=
  '0' ≤ c ∧ c ≤ '9' ∨ 'a' ≤ c ∧ c ≤ 'f' ∨ 'A' ≤ c ∧ c ≤ 'F'

instance : DecidablePred IsHexDigit :=
  fun _ => inferInstanceAs (Decidable (_ ∨ _))

/-- A colour as it is documented: three, six or eight hexadecimal digits, which may have a number sign
    in front. -/
def Color.IsHex (text : String) : Prop :=
  ∃ digits, (text.toList = digits ∨ text.toList = '#' :: digits) ∧ digits.length ∈ [3, 6, 8] ∧
    ∀ c ∈ digits, IsHexDigit c

namespace Color

/-- The text of a colour without the white space around it and the number signs in front. -/
def stripped (text : String) : List Char :=
  (trim isBlank text.toList).dropWhile (· = '#')

/-- A text that is a documented colour apart from white space and number signs. -/
def Documented (text : String) : Prop :=
  (stripped text).length ∈ [3, 6, 8] ∧ ∀ c ∈ stripped text, IsHexDigit c

instance : DecidablePred Documented :=
  fun _ => inferInstanceAs (Decidable (_ ∧ _))

end Color

namespace Text

/-- Every hexadecimal digit has a value, and is neither white space nor a sign. -/
theorem IsHexDigit.spec {c : Char} (hc : IsHexDigit c) :
    (hexValue? c).isSome = true ∧ isBlank c = false ∧ c ≠ '#' ∧ c ≠ '+' ∧ c ≠ '-' := by
  have hall : ∀ n ∈ List.range 128, IsHexDigit (Char.ofNat n) →
      (hexValue? (Char.ofNat n)).isSome = true ∧ isBlank (Char.ofNat n) = false ∧
        Char.ofNat n ≠ '#' ∧ Char.ofNat n ≠ '+' ∧ Char.ofNat n ≠ '-' := by
    decide +kernel
  have hlt : c.toNat < 128 := by
    have hle : c.toNat ≤ 'f'.toNat := by
      obtain ⟨_, hc⟩ | ⟨_, hc⟩ | ⟨_, hc⟩ := hc
      · exact Nat.le_trans hc (by decide)
      · exact hc
      · exact Nat.le_trans hc (by decide)
    exact Nat.lt_of_le_of_lt hle (by decide)
  have hfound := hall c.toNat (List.mem_range.2 hlt)
  rw [Char.ofNat_toNat] at hfound
  exact hfound hc

end Text

namespace Color

theorem channel_of_hex {first second : Char} (hfirst : IsHexDigit first) (hsecond : IsHexDigit second) :
    ∃ value, channel first second = .ok value := by
  obtain ⟨hhigh, hblank, -, hplus, hminus⟩ := hfirst.spec
  obtain ⟨hlow, hother, -⟩ := hsecond.spec
  obtain ⟨high, hhigh⟩ := Option.isSome_iff_exists.1 hhigh
  obtain ⟨low, hlow⟩ := Option.isSome_iff_exists.1 hlow
  have htrim : trim isNumeralBlank [first, second] = [first, second] :=
    trim_of_forall (by simp [isNumeralBlank, hblank, hother])
  have hdigits : hexNat? [first, second] = some (16 * (16 * 0 + high) + low) := by
    simp [hexNat?, hhigh, hlow]
  have hchannel : channel? [first, second] = some ((16 * (16 * 0 + high) + low : Nat) : Int) := by
    rw [channel?, htrim]
    split
    · next hsign => exact absurd (List.cons.inj hsign).1 hminus
    · next hsign => exact absurd (List.cons.inj hsign).1 hplus
    · rw [hdigits]
      rfl
  exact ⟨_, by rw [channel, hchannel]⟩

variable {α : Type} [Div α] [∀ n, OfNat α n] [Coordinate α]

theorem stripped_of_hex {text : String} {digits : List Char}
    (htext : text.toList = digits ∨ text.toList = '#' :: digits) (hdigits : ∀ c ∈ digits, IsHexDigit c) :
    stripped text = digits := by
  have hsign : digits.dropWhile (· = '#') = digits :=
    dropWhile_of_head? fun c hc => by simp [(hdigits c (List.mem_of_head? hc)).spec.2.2.1]
  have hblank : ∀ c ∈ digits, isBlank c = false := fun c hc => (hdigits c hc).spec.2.1
  obtain htext | htext := htext
  · rw [stripped, htext, trim_of_forall hblank, hsign]
  · rw [stripped, htext, trim_of_forall (List.forall_mem_cons.2 ⟨by decide, hblank⟩)]
    simpa using hsign

theorem readable_of_pieces {text : String} {pieces : List Char} (hpieces : hexPieces text = pieces)
    (hlength : pieces.length = 6 ∨ pieces.length = 8) (hhex : ∀ c ∈ pieces, IsHexDigit c) :
    Readable α text := by
  rw [Readable, ofHex, hpieces]
  rcases pieces with _ | ⟨r₁, _ | ⟨r₂, _ | ⟨g₁, _ | ⟨g₂, _ | ⟨b₁, _ | ⟨b₂, _ | ⟨a₁, _ | ⟨a₂, _ |
    ⟨_, rest⟩⟩⟩⟩⟩⟩⟩⟩⟩
  all_goals try (simp only [List.length_cons, List.length_nil] at hlength; omega)
  · simp only [List.forall_mem_cons] at hhex
    obtain ⟨hr₁, hr₂, hg₁, hg₂, hb₁, hb₂, -⟩ := hhex
    obtain ⟨red, hred⟩ := channel_of_hex hr₁ hr₂
    obtain ⟨green, hgreen⟩ := channel_of_hex hg₁ hg₂
    obtain ⟨blue, hblue⟩ := channel_of_hex hb₁ hb₂
    exact ⟨⟨red, green, blue, 1⟩, by simp only [hred, hgreen, hblue]; rfl⟩
  · simp only [List.forall_mem_cons] at hhex
    obtain ⟨hr₁, hr₂, hg₁, hg₂, hb₁, hb₂, ha₁, ha₂, -⟩ := hhex
    obtain ⟨red, hred⟩ := channel_of_hex hr₁ hr₂
    obtain ⟨green, hgreen⟩ := channel_of_hex hg₁ hg₂
    obtain ⟨blue, hblue⟩ := channel_of_hex hb₁ hb₂
    obtain ⟨opacity, hopacity⟩ := channel_of_hex ha₁ ha₂
    exact ⟨⟨red, green, blue, Coordinate.ofInt opacity / 255⟩,
      by simp only [hred, hgreen, hblue, hopacity]; rfl⟩

/-- Of three digits each is written twice, and other numbers of digits stay as they are. -/
theorem hexPieces_cases (text : String) :
    (∃ r g b, stripped text = [r, g, b] ∧ hexPieces text = [r, r, g, g, b, b]) ∨
      (stripped text).length ≠ 3 ∧ hexPieces text = stripped text := by
  rw [hexPieces, ← stripped]
  split
  · next r g b hdigits => exact .inl ⟨r, g, b, hdigits, rfl⟩
  · next hother =>
    refine .inr ⟨fun hthree => ?_, rfl⟩
    obtain ⟨r, g, b, hdigits⟩ := List.length_eq_three.1 hthree
    exact hother r g b hdigits

theorem length_hexPieces_iff {text : String} :
    (hexPieces text).length = 6 ∨ (hexPieces text).length = 8 ↔
      (stripped text).length ∈ [3, 6, 8] := by
  obtain ⟨r, g, b, hdigits, hpieces⟩ | ⟨hthree, hpieces⟩ := hexPieces_cases text
  · simp [hdigits, hpieces]
  · simp [hthree, hpieces]

theorem mem_hexPieces_iff {text : String} {c : Char} :
    c ∈ hexPieces text ↔ c ∈ stripped text := by
  obtain ⟨r, g, b, hdigits, hpieces⟩ | ⟨-, hpieces⟩ := hexPieces_cases text
  · simp [hdigits, hpieces]
  · rw [hpieces]

theorem Documented.readable {text : String} (htext : Documented text) : Readable α text :=
  readable_of_pieces rfl (length_hexPieces_iff.2 htext.1) fun c hc =>
    htext.2 c (mem_hexPieces_iff.1 hc)

theorem IsHex.documented {text : String} (htext : IsHex text) : Documented text := by
  obtain ⟨digits, hdigits, hlength, hhex⟩ := htext
  have hstripped := stripped_of_hex hdigits hhex
  exact ⟨hstripped ▸ hlength, hstripped ▸ hhex⟩

/-- Every documented colour can be read. -/
theorem IsHex.readable {text : String} (htext : IsHex text) : Readable α text :=
  htext.documented.readable

end Color

end SequenceChart
