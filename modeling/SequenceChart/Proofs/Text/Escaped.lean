import SequenceChart.Proofs.Text.Marked
import SequenceChart.Text.Escaped

namespace SequenceChart.Text

/-- What follows the ampersand of the five references, and the character that each one stands for. -/
def references : List (List Char × Char) :=
  [(['a', 'm', 'p', ';'], '&'), (['l', 't', ';'], '<'), (['g', 't', ';'], '>'),
    (['q', 'u', 'o', 't', ';'], '"'), (['#', '3', '9', ';'], '\'')]

/-- The characters that markup content stands for. -/
def decodedChars : List Char → List Char
  | '&' :: 'a' :: 'm' :: 'p' :: ';' :: rest => '&' :: decodedChars rest
  | '&' :: 'l' :: 't' :: ';' :: rest => '<' :: decodedChars rest
  | '&' :: 'g' :: 't' :: ';' :: rest => '>' :: decodedChars rest
  | '&' :: 'q' :: 'u' :: 'o' :: 't' :: ';' :: rest => '"' :: decodedChars rest
  | '&' :: '#' :: '3' :: '9' :: ';' :: rest => '\'' :: decodedChars rest
  | c :: rest => c :: decodedChars rest
  | [] => []

/-- Markup content that stands for a line. It has no character that could end it or an attribute, and
    every ampersand begins a reference. -/
structure Encodes (content line : String) : Prop where
  plain : ∀ c ∈ content.toList, c ∉ ['<', '>', '"', '\'']
  referring : ∀ front back, content.toList = front ++ '&' :: back →
    ∃ reference ∈ references, reference.1 <+: back
  decoded : String.ofList (decodedChars content.toList) = line

/-- An escaped character is itself, if it has no meaning in markup, or its reference. -/
theorem escapeChar_eq (c : Char) :
    escapeChar c = [c] ∧ c ∉ ['<', '>', '"', '\'', '&'] ∨
      ∃ name, (name, c) ∈ references ∧ escapeChar c = '&' :: name := by
  fun_cases escapeChar c
  case case6 hamp hlt hgt hquot hapos =>
    refine .inl ⟨rfl, ?_⟩
    simp only [List.mem_cons, List.not_mem_nil, or_false, not_or]
    exact ⟨hlt, hgt, hquot, hapos, hamp⟩
  all_goals exact .inr ⟨_, by decide, rfl⟩

theorem references_plain : ∀ reference ∈ references, ∀ c ∈ reference.1,
    c ∉ ['<', '>', '"', '\'', '&'] := by
  simp [references]

theorem decodedChars_escapeChar (c : Char) (rest : List Char) :
    decodedChars (escapeChar c ++ rest) = c :: decodedChars rest := by
  obtain ⟨hplain, hc⟩ | ⟨name, hname, hreference⟩ := escapeChar_eq c
  · rw [hplain]
    have hamp : c ≠ '&' := by
      rintro rfl
      exact hc (by decide)
    rw [List.singleton_append, decodedChars] <;> exact fun _ h => absurd h hamp
  · simp only [references, List.mem_cons, Prod.mk.injEq, List.not_mem_nil, or_false] at hname
    obtain ⟨rfl, rfl⟩ | ⟨rfl, rfl⟩ | ⟨rfl, rfl⟩ | ⟨rfl, rfl⟩ | ⟨rfl, rfl⟩ := hname <;> rfl

theorem referring_escapeChar (c : Char) (rest : List Char) :
    ∀ front back, escapeChar c = front ++ '&' :: back →
      ∃ reference ∈ references, reference.1 <+: back ++ rest := by
  intro front back hsplit
  obtain ⟨hplain, hc⟩ | ⟨name, hname, hreference⟩ := escapeChar_eq c
  · rw [hplain] at hsplit
    have hmem : '&' ∈ [c] := hsplit ▸ List.mem_append_right _ List.mem_cons_self
    obtain rfl := List.mem_singleton.1 hmem
    exact absurd (by decide) hc
  · rw [hreference] at hsplit
    cases front with
    | nil =>
      obtain ⟨-, rfl⟩ := List.cons.inj hsplit
      exact ⟨_, hname, List.prefix_append _ _⟩
    | cons d front =>
      -- No name of a reference has an ampersand in it.
      obtain ⟨-, hinside⟩ := List.cons.inj hsplit
      have hmem : '&' ∈ name := hinside ▸ List.mem_append_right _ List.mem_cons_self
      exact absurd (by decide) (references_plain _ hname '&' hmem)

/-- An escaped text stands for the text. -/
theorem escaped_encodes (text : String) : Encodes (escaped text) text := by
  refine ⟨?_, ?_, ?_⟩
  · simp only [escaped, String.toList_ofList, List.mem_flatMap]
    rintro c ⟨d, -, hc⟩ hspecial
    obtain ⟨hplain, hd⟩ | ⟨name, hname, hreference⟩ := escapeChar_eq d
    · rw [hplain, List.mem_singleton] at hc
      subst hc
      exact hd (List.mem_append_left ['&'] hspecial)
    · rw [hreference] at hc
      obtain rfl | hc := List.mem_cons.1 hc
      · exact absurd hspecial (by decide)
      · exact references_plain _ hname c hc (List.mem_append_left ['&'] hspecial)
  · rw [escaped, String.toList_ofList]
    induction text.toList with
    | nil => simp
    | cons c rest ih => exact marked_append (referring_escapeChar c _) ih
  · rw [escaped, String.toList_ofList]
    have hdecoded (cs : List Char) : decodedChars (cs.flatMap escapeChar) = cs := by
      induction cs with
      | nil => rfl
      | cons c rest ih => rw [List.flatMap_cons, decodedChars_escapeChar, ih]
    rw [hdecoded, String.ofList_toList]

end SequenceChart.Text
