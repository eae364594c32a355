import SequenceChart.Color.Hex
import SequenceChart.Proofs.Text.Trimmed
import SequenceChart.Proofs.Token.Spelled

namespace SequenceChart

open Text

namespace Text

theorem decimalValue?_spec {c : Char} {value : Nat} (hc : decimalValue? c = some value) :
    value < 10 ∧ '0' ≤ c := by
  obtain ⟨low, hfound, rfl⟩ := Option.map_eq_some_iff.1 hc
  have hlow : low ≤ c.toNat ∧ c.toNat < low + 10 := by simpa using List.find?_some hfound
  have hzero : ∀ low ∈ decimalZeros, 48 ≤ low := by decide
  exact ⟨by omega, Nat.le_trans (hzero low (List.mem_of_find?_eq_some hfound)) hlow.1⟩

/-- A digit has a value below sixteen, and the signs come before all digits. -/
theorem hexValue?_spec {c : Char} {value : Nat} (hc : hexValue? c = some value) :
    value < 16 ∧ '0' ≤ c := by
  unfold hexValue? at hc
  split at hc
  · next hsmall =>
    simp only [Bool.and_eq_true, decide_eq_true_eq] at hsmall
    obtain ⟨hlow, hhigh⟩ : 97 ≤ c.toNat ∧ c.toNat ≤ 102 := hsmall
    obtain rfl := Option.some.inj hc
    exact ⟨by simp; omega, Nat.le_trans (by decide) hlow⟩
  split at hc
  · next hcapital =>
    simp only [Bool.and_eq_true, decide_eq_true_eq] at hcapital
    obtain ⟨hlow, hhigh⟩ : 65 ≤ c.toNat ∧ c.toNat ≤ 70 := hcapital
    obtain rfl := Option.some.inj hc
    exact ⟨by simp; omega, Nat.le_trans (by decide) hlow⟩
  · exact (decimalValue?_spec hc).imp_left fun hlt => by omega

/-- White space has no value. -/
theorem hexValue?_of_isBlank {c : Char} (hc : isBlank c = true) : hexValue? c = none := by
  have hall : ∀ bounds ∈ blankIntervals, ∀ n ∈ List.range' bounds.1 (bounds.2 + 1 - bounds.1),
      hexValue? (Char.ofNat n) = none := by decide +kernel
  obtain ⟨bounds, hbounds, hlow, hhigh⟩ := Lexeme.mem_of_covers hc
  have hnone := hall bounds hbounds c.toNat (List.mem_range'_1.2 ⟨hlow, by omega⟩)
  rwa [Char.ofNat_toNat] at hnone

/-- The digits that numbers are written with have their values. -/
theorem hexValue?_digitChar {n : Nat} (hn : n < 16) : hexValue? (Nat.digitChar n) = some n := by
  have hall : ∀ n ∈ List.range 16, hexValue? (Nat.digitChar n) = some n := by decide
  exact hall n (List.mem_range.2 hn)

end Text

namespace Color

/-- How two characters make a channel: as two digits of any script, or as one digit that a sign or
    white space stands in front of, or white space behind. -/
inductive Channel : Char → Char → Int → Prop where
  | digits {first second : Char} {high low : Nat} (hfirst : hexValue? first = some high)
      (hsecond : hexValue? second = some low) : Channel first second (16 * high + low : Nat)
  | plus {digit : Char} {value : Nat} (hdigit : hexValue? digit = some value) :
      Channel '+' digit value
  | minus {digit : Char} {value : Nat} (hdigit : hexValue? digit = some value) :
      Channel '-' digit (-value)
  | before {blank digit : Char} {value : Nat} (hblank : isNumeralBlank blank = true)
      (hdigit : hexValue? digit = some value) : Channel blank digit value
  | behind {digit blank : Char} {value : Nat} (hdigit : hexValue? digit = some value)
      (hblank : isNumeralBlank blank = true) : Channel digit blank value

theorem not_isBlank {c : Char} {value : Nat} (hc : hexValue? c = some value) : isBlank c = false := by
  cases hblank : isBlank c with
  | false => rfl
  | true => simp [hexValue?_of_isBlank hblank] at hc

theorem not_isNumeralBlank {c : Char} {value : Nat} (hc : hexValue? c = some value) :
    isNumeralBlank c = false := by
  simp [isNumeralBlank, not_isBlank hc]

theorem hexValue?_sign : hexValue? '-' = none ∧ hexValue? '+' = none := by
  decide

theorem hexNat?_singleton (c : Char) : hexNat? [c] = hexValue? c := by
  cases hc : hexValue? c <;> simp [hexNat?, hc]

section Pieces

variable {piece : List Char}

theorem channel?_of_digit {c : Char} (htrim : trim isNumeralBlank piece = [c]) :
    channel? piece = (hexValue? c).map Int.ofNat := by
  rw [channel?, htrim]
  split
  · next heq =>
    obtain ⟨rfl, rfl⟩ := List.cons.inj heq
    rfl
  · next heq =>
    obtain ⟨rfl, rfl⟩ := List.cons.inj heq
    rfl
  · rw [hexNat?_singleton]
    cases hexValue? c <;> rfl

theorem channel?_of_pair {first second : Char} (htrim : trim isNumeralBlank piece = [first, second])
    {value : Int} :
    channel? piece = some value ↔
      (first = '-' ∧ ∃ n : Nat, hexValue? second = some n ∧ value = -n) ∨
      (first = '+' ∧ ∃ n : Nat, hexValue? second = some n ∧ value = n) ∨
      ∃ high low : Nat, hexValue? first = some high ∧ hexValue? second = some low ∧
        value = (16 * high + low : Nat) := by
  have hpair : hexNat? [first, second] = (hexValue? first).bind fun high =>
      (hexValue? second).map (16 * high + ·) := by
    cases hfirst : hexValue? first <;> cases hsecond : hexValue? second <;>
      simp [hexNat?, hfirst, hsecond]
  rw [channel?, htrim]
  split
  · next heq =>
    obtain ⟨rfl, rfl⟩ := List.cons.inj heq
    rw [hexNat?_singleton]
    cases hexValue? second <;> simp [eq_comm, hexValue?_sign]
  · next heq =>
    obtain ⟨rfl, rfl⟩ := List.cons.inj heq
    rw [hexNat?_singleton]
    cases hexValue? second <;> simp [eq_comm, hexValue?_sign]
  · next hminus hplus =>
    have hminus : first ≠ '-' := fun heq => hminus [second] (by rw [heq])
    have hplus : first ≠ '+' := fun heq => hplus [second] (by rw [heq])
    rw [hpair]
    cases hexValue? second <;> cases hexValue? first <;> simp [eq_comm, hminus, hplus]

end Pieces

/-- Two characters have the value of the channel that they make. -/
theorem channel?_eq_some_iff {first second : Char} {value : Int} :
    channel? [first, second] = some value ↔ Channel first second value := by
  have hsigns : isNumeralBlank '-' = false ∧ isNumeralBlank '+' = false := by decide
  cases hfirst : isNumeralBlank first with
  | true =>
    cases hsecond : isNumeralBlank second with
    | true =>
      have htrim : trim isNumeralBlank [first, second] = [] := by
        simp [trim, trimEnd, hfirst, hsecond]
      have hnone : channel? [first, second] = none := by rw [channel?, htrim]; rfl
      rw [hnone]
      refine iff_of_false (by simp) fun hchannel => ?_
      cases hchannel <;> grind [not_isNumeralBlank]
    | false =>
      have htrim : trim isNumeralBlank [first, second] = [second] := by
        simp [trim, trimEnd, hfirst, hsecond]
      rw [channel?_of_digit htrim, Option.map_eq_some_iff]
      constructor
      · rintro ⟨n, hdigit, rfl⟩
        exact .before hfirst hdigit
      · intro hchannel
        cases hchannel <;> grind [not_isNumeralBlank]
  | false =>
    cases hsecond : isNumeralBlank second with
    | true =>
      have htrim : trim isNumeralBlank [first, second] = [first] := by
        simp [trim, trimEnd, hfirst, hsecond]
      rw [channel?_of_digit htrim, Option.map_eq_some_iff]
      constructor
      · rintro ⟨n, hdigit, rfl⟩
        exact .behind hdigit hsecond
      · intro hchannel
        cases hchannel <;> grind [not_isNumeralBlank]
    | false =>
      have htrim : trim isNumeralBlank [first, second] = [first, second] := by
        simp [trim, trimEnd, hfirst, hsecond]
      rw [channel?_of_pair htrim]
      constructor
      · rintro (⟨rfl, n, hdigit, rfl⟩ | ⟨rfl, n, hdigit, rfl⟩ | ⟨high, low, hhigh, hlow, rfl⟩)
        · exact .minus hdigit
        · exact .plus hdigit
        · exact .digits hhigh hlow
      · intro hchannel
        cases hchannel <;> grind

/-- A channel is below 256, and negative exactly if a minus sign stands in front of a digit other than
    zero. -/
theorem Channel.bounds {first second : Char} {value : Int} (hchannel : Channel first second value) :
    -16 < value ∧ value < 256 ∧ (0 ≤ value ↔ (first = '-' → hexValue? second = some 0)) := by
  have hlt {c : Char} {n : Nat} (hc : hexValue? c = some n) : n < 16 := (hexValue?_spec hc).1
  have hminus {c : Char} {n : Nat} (hc : hexValue? c = some n) : c ≠ '-' := fun heq => by
    rw [heq, hexValue?_sign.1] at hc
    cases hc
  cases hchannel with
  | digits hfirst hsecond =>
    have hhigh := hlt hfirst
    have hlow := hlt hsecond
    exact ⟨by omega, by omega, iff_of_true (by omega) fun heq => absurd heq (hminus hfirst)⟩
  | plus hdigit =>
    have hvalue := hlt hdigit
    exact ⟨by omega, by omega, iff_of_true (by omega) fun heq => absurd heq (by decide)⟩
  | @minus digit value hdigit =>
    have hvalue := hlt hdigit
    refine ⟨by omega, by omega, fun hzero _ => ?_, fun hzero => ?_⟩
    · rw [hdigit, show value = 0 by omega]
    · obtain rfl := Option.some.inj (hdigit.symm.trans (hzero rfl))
      decide
  | before hblank hdigit =>
    have hvalue := hlt hdigit
    refine ⟨by omega, by omega, iff_of_true (by omega) fun heq => ?_⟩
    rw [heq] at hblank
    exact absurd hblank (by decide)
  | behind hdigit hblank =>
    have hvalue := hlt hdigit
    exact ⟨by omega, by omega, iff_of_true (by omega) fun heq => absurd heq (hminus hdigit)⟩

/-- A small hexadecimal digit, as colours are written with. -/
def IsSmallHexDigit (c : Char) : Prop :=
  '0' ≤ c ∧ c ≤ '9' ∨ 'a' ≤ c ∧ c ≤ 'f'

instance : DecidablePred IsSmallHexDigit :=
  fun _ => inferInstanceAs (Decidable (_ ∨ _))

theorem isSmallHexDigit_digitChar {n : Nat} (hn : n < 16) : IsSmallHexDigit (Nat.digitChar n) := by
  have hall : ∀ n ∈ List.range 16, IsSmallHexDigit (Nat.digitChar n) := by decide
  exact hall n (List.mem_range.2 hn)

theorem channelHex_of_lt {n : Nat} (hn : n < 256) :
    channelHex n = [Nat.digitChar (n / 16), Nat.digitChar (n % 16)] := by
  rw [channelHex, if_neg (by omega), Int.natAbs_natCast, hexDigits]
  by_cases hsmall : n < 16
  · rw [Nat.toDigits_of_lt_base hsmall, Nat.div_eq_of_lt hsmall, Nat.mod_eq_of_lt hsmall]
    rfl
  · rw [Nat.toDigits_of_base_le (by decide) (by omega), Nat.toDigits_of_lt_base (by omega)]
    rfl

theorem channelHex_neg {n : Nat} (hpos : 0 < n) (hn : n < 16) :
    channelHex (-n) = ['-', Nat.digitChar n] := by
  rw [channelHex, if_pos (by omega), Int.natAbs_neg, Int.natAbs_natCast, hexDigits,
    Nat.toDigits_of_lt_base hn]
  rfl

/-- What a channel is written with makes the same channel. It is two small hexadecimal digits unless
    the channel is negative. -/
theorem channelHex_spec {value : Int} (hlow : -16 < value) (hhigh : value < 256) :
    ∃ first second, channelHex value = [first, second] ∧ Channel first second value ∧
      (∀ c ∈ [first, second], isBlank c = false ∧ c ≠ '#') ∧
      (0 ≤ value ↔ ∀ c ∈ [first, second], IsSmallHexDigit c) := by
  have hdigit {n : Nat} (hn : n < 16) :
      isBlank (Nat.digitChar n) = false ∧ Nat.digitChar n ≠ '#' := by
    have hvalue := hexValue?_digitChar hn
    refine ⟨not_isBlank hvalue, fun heq => ?_⟩
    have hle := (hexValue?_spec hvalue).2
    rw [heq] at hle
    exact absurd hle (by decide)
  obtain ⟨n, rfl | rfl⟩ := value.eq_nat_or_neg
  · have hn : n < 256 := by omega
    have hfirst : n / 16 < 16 := by omega
    have hsecond : n % 16 < 16 := Nat.mod_lt n (by decide)
    have hchannel := Channel.digits (hexValue?_digitChar hfirst) (hexValue?_digitChar hsecond)
    rw [Nat.div_add_mod] at hchannel
    refine ⟨_, _, channelHex_of_lt hn, hchannel, ?_, iff_of_true (by omega) ?_⟩
    · simp [hdigit hfirst, hdigit hsecond]
    · simp [isSmallHexDigit_digitChar hfirst, isSmallHexDigit_digitChar hsecond]
  · by_cases hpos : 0 < n
    · have hn : n < 16 := by omega
      refine ⟨_, _, channelHex_neg hpos hn, .minus (hexValue?_digitChar hn), ?_,
        iff_of_false (by omega) fun hsmall => ?_⟩
      · exact List.forall_mem_cons.2 ⟨by decide, List.forall_mem_singleton.2 (hdigit hn)⟩
      · exact absurd (hsmall '-' List.mem_cons_self) (by decide)
    · obtain rfl : n = 0 := by omega
      have hzero : hexValue? '0' = some 0 := by decide
      have hplain : isBlank '0' = false ∧ '0' ≠ '#' := by decide
      have hsmall : IsSmallHexDigit '0' := by decide
      exact ⟨'0', '0', rfl, .digits hzero hzero,
        List.forall_mem_cons.2 ⟨hplain, List.forall_mem_singleton.2 hplain⟩,
        iff_of_true (by omega) (List.forall_mem_cons.2 ⟨hsmall, List.forall_mem_singleton.2 hsmall⟩)⟩

end Color

end SequenceChart
