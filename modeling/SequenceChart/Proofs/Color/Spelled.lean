import Mathlib.Algebra.Order.Field.Rat
import Mathlib.Tactic.Linarith
import SequenceChart.Proofs.Color.Channel
import SequenceChart.Proofs.Statement.Grammar
import SequenceChart.Proofs.Theme.Hex

namespace SequenceChart

open Text

theorem bind_eq_error_iff {E A B : Type} {x : Except E A} {f : A → Except E B} {error : E} :
    (x >>= f) = .error error ↔ x = .error error ∨ ∃ a, x = .ok a ∧ f a = .error error := by
  cases x <;> simp [bind, Except.bind]

namespace Color

/-- Characters two by two. -/
def pairs : List Char → List (Char × Char)
  | first :: second :: rest => (first, second) :: pairs rest
  | _ => []

theorem mem_of_mem_pairs {pair : Char × Char} {cs : List Char} (hpair : pair ∈ pairs cs) :
    pair.1 ∈ cs ∧ pair.2 ∈ cs := by
  fun_induction pairs cs with
  | case1 first second rest ih =>
    obtain rfl | hpair := List.mem_cons.1 hpair
    · exact ⟨by simp, by simp⟩
    · exact (ih hpair).imp (List.mem_cons_of_mem _ ∘ List.mem_cons_of_mem _)
        (List.mem_cons_of_mem _ ∘ List.mem_cons_of_mem _)
  | case2 => cases hpair

section Spells

variable {α : Type} [Div α] [∀ n, OfNat α n] [Coordinate α]

/-- How the characters of a colour spell it: two by two they make the channels, and the opacity if
    there are eight. -/
inductive Spells : List Char → Color α → Prop where
  | solid {r₁ r₂ g₁ g₂ b₁ b₂ : Char} {red green blue : Int} (hred : Channel r₁ r₂ red)
      (hgreen : Channel g₁ g₂ green) (hblue : Channel b₁ b₂ blue) :
      Spells [r₁, r₂, g₁, g₂, b₁, b₂] ⟨red, green, blue, 1⟩
  | sheer {r₁ r₂ g₁ g₂ b₁ b₂ a₁ a₂ : Char} {red green blue opacity : Int}
      (hred : Channel r₁ r₂ red) (hgreen : Channel g₁ g₂ green) (hblue : Channel b₁ b₂ blue)
      (hopacity : Channel a₁ a₂ opacity) :
      Spells [r₁, r₂, g₁, g₂, b₁, b₂, a₁, a₂]
        ⟨red, green, blue, Coordinate.ofInt opacity / 255⟩

theorem Spells.length {pieces : List Char} {color : Color α} (hspells : Spells pieces color) :
    pieces.length = 6 ∨ pieces.length = 8 := by
  cases hspells with
  | solid => exact .inl rfl
  | sheer => exact .inr rfl

theorem channel_eq_ok_iff {first second : Char} {value : Int} :
    channel first second = .ok value ↔ Channel first second value := by
  rw [← channel?_eq_some_iff, channel]
  cases channel? [first, second] <;> simp

theorem ofHex_eq_ok_iff {text : String} {color : Color α} :
    ofHex text = .ok color ↔ Spells (hexPieces text) color := by
  constructor
  · intro hread
    unfold ofHex at hread
    split at hread
    · next hpieces =>
      simp only [bind_eq_ok_iff, channel_eq_ok_iff] at hread
      obtain ⟨red, hred, green, hgreen, blue, hblue, hcolor⟩ := hread
      obtain rfl := Except.ok.inj hcolor
      rw [hpieces]
      exact .solid hred hgreen hblue
    · next hpieces =>
      simp only [bind_eq_ok_iff, channel_eq_ok_iff] at hread
      obtain ⟨red, hred, green, hgreen, blue, hblue, opacity, hopacity, hcolor⟩ := hread
      obtain rfl := Except.ok.inj hcolor
      rw [hpieces]
      exact .sheer hred hgreen hblue hopacity
    · cases hread
  · intro hspells
    unfold ofHex
    generalize hexPieces text = pieces at hspells ⊢
    cases hspells with
    | solid hred hgreen hblue =>
      simp only [channel_eq_ok_iff.2 hred, channel_eq_ok_iff.2 hgreen, channel_eq_ok_iff.2 hblue]
      rfl
    | sheer hred hgreen hblue hopacity =>
      simp only [channel_eq_ok_iff.2 hred, channel_eq_ok_iff.2 hgreen, channel_eq_ok_iff.2 hblue,
        channel_eq_ok_iff.2 hopacity]
      rfl

theorem exists_of_length_six : ∀ {pieces : List Char}, pieces.length = 6 →
    ∃ r₁ r₂ g₁ g₂ b₁ b₂, pieces = [r₁, r₂, g₁, g₂, b₁, b₂]
  | [r₁, r₂, g₁, g₂, b₁, b₂], _ => ⟨r₁, r₂, g₁, g₂, b₁, b₂, rfl⟩

theorem exists_of_length_eight : ∀ {pieces : List Char}, pieces.length = 8 →
    ∃ r₁ r₂ g₁ g₂ b₁ b₂ a₁ a₂, pieces = [r₁, r₂, g₁, g₂, b₁, b₂, a₁, a₂]
  | [r₁, r₂, g₁, g₂, b₁, b₂, a₁, a₂], _ => ⟨r₁, r₂, g₁, g₂, b₁, b₂, a₁, a₂, rfl⟩

/-- A text that is no colour has the wrong number of characters, or two of its characters make no
    channel. -/
theorem ofHex_eq_error {text : String} {error : ColorError}
    (hread : (ofHex text : Except ColorError (Color α)) = .error error) :
    error = .wrongLength text ∧ (stripped text).length ∉ [3, 6, 8] ∨
      ∃ pair ∈ pairs (hexPieces text), error = .badChannel (String.ofList [pair.1, pair.2]) ∧
        ∀ value, ¬ Channel pair.1 pair.2 value := by
  have hchannel {first second : Char} (hbad : channel first second = .error error) :
      error = .badChannel (String.ofList [first, second]) ∧ ∀ value, ¬ Channel first second value := by
    refine ⟨?_, fun value hvalue => ?_⟩
    · rw [channel] at hbad
      split at hbad
      · cases hbad
      · exact (Except.error.inj hbad).symm
    · rw [channel_eq_ok_iff.2 hvalue] at hbad
      cases hbad
  rw [← length_hexPieces_iff]
  unfold ofHex at hread
  split at hread
  · next r₁ r₂ g₁ g₂ b₁ b₂ hpieces =>
    simp only [bind_eq_error_iff] at hread
    rw [hpieces]
    obtain hred | ⟨_, -, hgreen | ⟨_, -, hblue | ⟨_, -, hcolor⟩⟩⟩ := hread
    · exact .inr ⟨(r₁, r₂), by simp [pairs], hchannel hred⟩
    · exact .inr ⟨(g₁, g₂), by simp [pairs], hchannel hgreen⟩
    · exact .inr ⟨(b₁, b₂), by simp [pairs], hchannel hblue⟩
    · cases hcolor
  · next r₁ r₂ g₁ g₂ b₁ b₂ a₁ a₂ hpieces =>
    simp only [bind_eq_error_iff] at hread
    rw [hpieces]
    obtain hred | ⟨_, -, hgreen | ⟨_, -, hblue | ⟨_, -, hopacity | ⟨_, -, hcolor⟩⟩⟩⟩ := hread
    · exact .inr ⟨(r₁, r₂), by simp [pairs], hchannel hred⟩
    · exact .inr ⟨(g₁, g₂), by simp [pairs], hchannel hgreen⟩
    · exact .inr ⟨(b₁, b₂), by simp [pairs], hchannel hblue⟩
    · exact .inr ⟨(a₁, a₂), by simp [pairs], hchannel hopacity⟩
    · cases hcolor
  · next hsix height =>
    refine .inl ⟨(Except.error.inj hread).symm, ?_⟩
    generalize hexPieces text = pieces at hsix height ⊢
    rintro (hlength | hlength)
    · obtain ⟨r₁, r₂, g₁, g₂, b₁, b₂, hpieces⟩ := exists_of_length_six hlength
      exact hsix r₁ r₂ g₁ g₂ b₁ b₂ hpieces
    · obtain ⟨r₁, r₂, g₁, g₂, b₁, b₂, a₁, a₂, hpieces⟩ := exists_of_length_eight hlength
      exact height r₁ r₂ g₁ g₂ b₁ b₂ a₁ a₂ hpieces

end Spells

/-- The channels from zero to 255, and the opacity from zero to one. -/
structure Proper (color : Color ℚ) : Prop where
  red : 0 ≤ color.red ∧ color.red ≤ 255
  green : 0 ≤ color.green ∧ color.green ≤ 255
  blue : 0 ≤ color.blue ∧ color.blue ≤ 255
  alpha : 0 ≤ color.alpha ∧ color.alpha ≤ 1

/-- A number sign and six small hexadecimal digits. -/
def IsHexText (text : String) : Prop :=
  ∃ digits, text.toList = '#' :: digits ∧ digits.length = 6 ∧ ∀ c ∈ digits, IsSmallHexDigit c

/-- Two characters that do not make a negative channel. -/
def Unsigned (pair : Char × Char) : Prop :=
  pair.1 = '-' → hexValue? pair.2 = some 0

/-- What is spelled is proper unless two of the characters make a negative channel. -/
theorem Spells.proper_iff {pieces : List Char} {color : Color ℚ} (hspells : Spells pieces color) :
    color.Proper ↔ ∀ pair ∈ pairs pieces, Unsigned pair := by
  have hchannel {first second : Char} {value : ℤ} (hvalue : Channel first second value) :
      0 ≤ value ∧ value ≤ 255 ↔ Unsigned (first, second) := by
    obtain ⟨-, hhigh, hnonneg⟩ := hvalue.bounds
    rw [Unsigned, ← hnonneg]
    exact and_iff_left (by omega)
  have hopacity (n : ℤ) : 0 ≤ (n : ℚ) / 255 ∧ (n : ℚ) / 255 ≤ 1 ↔ 0 ≤ n ∧ n ≤ 255 := by
    rw [le_div_iff₀ (by norm_num), div_le_iff₀ (by norm_num), zero_mul, one_mul]
    norm_cast
  cases hspells with
  | solid hred hgreen hblue =>
    simp only [pairs, List.forall_mem_cons, ← hchannel hred, ← hchannel hgreen, ← hchannel hblue]
    constructor
    · exact fun hproper => ⟨hproper.red, hproper.green, hproper.blue, List.forall_mem_nil _⟩
    · exact fun ⟨hred, hgreen, hblue, _⟩ => ⟨hred, hgreen, hblue, by norm_num⟩
  | @sheer _ _ _ _ _ _ _ _ _ _ _ opacity hred hgreen hblue halpha =>
    simp only [pairs, List.forall_mem_cons, ← hchannel hred, ← hchannel hgreen, ← hchannel hblue,
      ← hchannel halpha]
    constructor
    · exact fun hproper => ⟨hproper.red, hproper.green, hproper.blue,
        (hopacity opacity).1 hproper.alpha, List.forall_mem_nil _⟩
    · exact fun ⟨hred, hgreen, hblue, halpha, _⟩ =>
        ⟨hred, hgreen, hblue, (hopacity opacity).2 halpha⟩

/-- The channels that are spelled are few enough to be written with two characters each. -/
theorem Spells.bounds {pieces : List Char} {color : Color ℚ} (hspells : Spells pieces color) :
    (-16 < color.red ∧ color.red < 256) ∧ (-16 < color.green ∧ color.green < 256) ∧
      -16 < color.blue ∧ color.blue < 256 := by
  have hchannel {first second : Char} {value : ℤ} (hvalue : Channel first second value) :
      -16 < value ∧ value < 256 := ⟨hvalue.bounds.1, hvalue.bounds.2.1⟩
  cases hspells with
  | solid hred hgreen hblue => exact ⟨hchannel hred, hchannel hgreen, hchannel hblue⟩
  | sheer hred hgreen hblue => exact ⟨hchannel hred, hchannel hgreen, hchannel hblue⟩

/-- What a colour is written as is spelled as the same colour without its opacity. It is six digits
    unless a channel is negative. -/
theorem Spells.toHex {pieces : List Char} {color : Color ℚ} (hspells : Spells pieces color) :
    Spells (hexPieces color.toHex) ({ color with alpha := 1 } : Color ℚ) ∧
      (IsHexText color.toHex ↔ 0 ≤ color.red ∧ 0 ≤ color.green ∧ 0 ≤ color.blue) := by
  obtain ⟨⟨hlow, hhigh⟩, ⟨hlow', hhigh'⟩, hlow'', hhigh''⟩ := hspells.bounds
  obtain ⟨r₁, r₂, hredText, hred, hredPlain, hredSmall⟩ := channelHex_spec hlow hhigh
  obtain ⟨g₁, g₂, hgreenText, hgreen, hgreenPlain, hgreenSmall⟩ := channelHex_spec hlow' hhigh'
  obtain ⟨b₁, b₂, hblueText, hblue, hbluePlain, hblueSmall⟩ := channelHex_spec hlow'' hhigh''
  have htext : color.toHex.toList = '#' :: ([r₁, r₂] ++ ([g₁, g₂] ++ [b₁, b₂])) := by
    rw [Color.toHex, String.toList_ofList, hredText, hgreenText, hblueText, List.append_assoc]
  constructor
  · have hplain : ∀ c ∈ [r₁, r₂] ++ ([g₁, g₂] ++ [b₁, b₂]), isBlank c = false ∧ c ≠ '#' :=
      List.forall_mem_append.2 ⟨hredPlain, List.forall_mem_append.2 ⟨hgreenPlain, hbluePlain⟩⟩
    have hblank : ∀ c ∈ '#' :: ([r₁, r₂] ++ ([g₁, g₂] ++ [b₁, b₂])), isBlank c = false :=
      List.forall_mem_cons.2 ⟨by decide, fun c hc => (hplain c hc).1⟩
    have hstripped : stripped color.toHex = [r₁, r₂] ++ ([g₁, g₂] ++ [b₁, b₂]) := by
      rw [stripped, htext, trim_of_forall hblank, List.dropWhile_cons_of_pos (by simp),
        dropWhile_of_head?]
      exact fun c hc => by simpa using (hplain c (List.mem_of_head? hc)).2
    have hpieces : hexPieces color.toHex = [r₁, r₂, g₁, g₂, b₁, b₂] := by
      obtain ⟨r, g, b, hthree, -⟩ | ⟨-, hpieces⟩ := hexPieces_cases color.toHex
      · rw [hstripped] at hthree
        simp at hthree
      · rw [hpieces, hstripped]
        rfl
    rw [hpieces]
    exact .solid hred hgreen hblue
  · rw [hredSmall, hgreenSmall, hblueSmall, IsHexText, htext, ← List.forall_mem_append,
      ← List.forall_mem_append]
    constructor
    · rintro ⟨digits, hdigits, -, hsmall⟩
      rwa [(List.cons.inj hdigits).2]
    · exact fun hsmall => ⟨_, rfl, rfl, hsmall⟩

/-- A text and the colour that it is read as. The text need not be documented, since a channel may also
    have digits of other scripts, or one digit with a sign or white space. The colour is proper unless
    a channel is negative, and what it is written as is read as the same colour without its opacity. -/
structure Reads (text : String) (color : Color ℚ) : Prop where
  length : (stripped text).length ∈ [3, 6, 8]
  documented : Documented text ↔ ∀ c ∈ stripped text, IsHexDigit c
  proper : color.Proper ↔ ∀ pair ∈ pairs (hexPieces text), Unsigned pair
  written : IsHexText color.toHex ↔ 0 ≤ color.red ∧ 0 ≤ color.green ∧ 0 ≤ color.blue
  again : ofHex color.toHex = .ok ({ color with alpha := 1 } : Color ℚ)

/-- Why the text of a colour is refused: for its length, or for two characters that make no channel. -/
def Refuses (text : String) (error : ColorError) : Prop :=
  error = .wrongLength text ∧ (stripped text).length ∉ [3, 6, 8] ∨
    ∃ pair ∈ pairs (hexPieces text), error = .badChannel (String.ofList [pair.1, pair.2]) ∧
      ∀ value, ¬ Channel pair.1 pair.2 value

/-- A text that is read exactly if it spells a colour, as every documented one does. -/
structure Spelling (text : String) : Prop where
  documented : Documented text → ∃ color : Color ℚ, ofHex text = .ok color ∧ color.Proper
  spelled : ∀ color : Color ℚ, ofHex text = .ok color ↔ Spells (hexPieces text) color
  refused : ∀ error, (ofHex text : Except ColorError (Color ℚ)) = .error error → Refuses text error
  reads : ∀ color : Color ℚ, ofHex text = .ok color → Reads text color

/-- Every text is read as the colour that it spells, or else refused. -/
theorem ofHex_spells (text : String) : Spelling text := by
  constructor
  case documented =>
    intro htext
    obtain ⟨color, hcolor⟩ := htext.readable (α := ℚ)
    have hsigns : ∀ pair ∈ pairs (hexPieces text), Unsigned pair := by
      intro pair hpair hminus
      have hc := htext.2 _ (mem_hexPieces_iff.1 (mem_of_mem_pairs hpair).1)
      exact absurd hminus hc.spec.2.2.2.2
    exact ⟨color, hcolor, (ofHex_eq_ok_iff.1 hcolor).proper_iff.2 hsigns⟩
  case spelled => exact fun color => ofHex_eq_ok_iff
  case refused => exact fun error => ofHex_eq_error
  case reads =>
    intro color hcolor
    have hspells := ofHex_eq_ok_iff.1 hcolor
    have hlength := length_hexPieces_iff.1 hspells.length
    obtain ⟨hwritten, hsix⟩ := hspells.toHex
    exact ⟨hlength, and_iff_right hlength, hspells.proper_iff, hsix, ofHex_eq_ok_iff.2 hwritten⟩

/-- Signs are read as well, and make channels below zero, which are written with signs again. -/
theorem ofHex_spells_signs :
    ∃ color : Color ℚ, ofHex "#-1-1-1" = .ok color ∧ ¬ Documented "#-1-1-1" ∧ ¬ color.Proper ∧
      ¬ IsHexText color.toHex := by
  have hminus : Channel '-' '1' (-1) := .minus (by decide)
  have hpieces : hexPieces "#-1-1-1" = ['-', '1', '-', '1', '-', '1'] := by decide
  have hcolor : ofHex "#-1-1-1" = .ok (⟨-1, -1, -1, 1⟩ : Color ℚ) := by
    rw [ofHex_eq_ok_iff, hpieces]
    exact .solid hminus hminus hminus
  have hsign : '-' ∈ stripped "#-1-1-1" := by decide
  have hdocumented : ¬ Documented "#-1-1-1" := fun hdigits => absurd (hdigits.2 '-' hsign) (by decide)
  refine ⟨_, hcolor, hdocumented, fun hproper => absurd hproper.red.1 (by decide), ?_⟩
  rintro ⟨digits, hdigits, -, hsmall⟩
  have htext : toHex (⟨-1, -1, -1, 1⟩ : Color ℚ) = "#-1-1-1" := by decide
  rw [htext] at hdigits
  obtain rfl : ['-', '1', '-', '1', '-', '1'] = digits := (List.cons.inj hdigits).2
  exact absurd (hsmall '-' List.mem_cons_self) (by decide)

end Color

end SequenceChart
