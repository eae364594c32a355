import Mathlib.Tactic.Common

namespace SequenceChart.Text

variable {mark : Char} {P : List Char → Prop}

theorem marked_append {front back : List Char}
    (hfront : ∀ before after, front = before ++ mark :: after → P (after ++ back))
    (hback : ∀ before after, back = before ++ mark :: after → P after) :
    ∀ before after, front ++ back = before ++ mark :: after → P after := by
  intro before after hsplit
  obtain ⟨middle, rfl, hmiddle⟩ | ⟨middle, rfl, hmiddle⟩ := List.append_eq_append_iff.1 hsplit
  · exact hback middle after hmiddle
  · cases middle with
    | nil => exact hback [] after hmiddle.symm
    | cons c middle =>
      obtain ⟨rfl, rfl⟩ := List.cons.inj hmiddle
      exact hfront before middle rfl

/-- A text in which every mark is followed by what has a property. -/
def Marked (mark : Char) (P : List Char → Prop) (text : String) : Prop :=
  ∀ front back, text.toList = front ++ mark :: back → P back

variable {text first second : String}

theorem marked_of_notMem (htext : mark ∉ text.toList) : Marked mark P text :=
  fun _ _ hsplit => absurd (hsplit ▸ List.mem_append_right _ List.mem_cons_self) htext

/-- A text with one mark, at its beginning. -/
theorem marked_cons {rest : List Char} (htext : text.toList = mark :: rest) (hrest : mark ∉ rest)
    (hfollows : P rest) : Marked mark P text := by
  intro front back hsplit
  rw [htext] at hsplit
  cases front with
  | nil =>
    obtain ⟨-, rfl⟩ := List.cons.inj hsplit
    exact hfollows
  | cons c front =>
    obtain ⟨-, rfl⟩ := List.cons.inj hsplit
    exact absurd (List.mem_append_right _ List.mem_cons_self) hrest

/-- If the property lasts however the text goes on, texts can be put one behind the other. -/
theorem Marked.append (hlasts : ∀ {back}, P back → ∀ rest, P (back ++ rest))
    (hfirst : Marked mark P first) (hsecond : Marked mark P second) : Marked mark P (first ++ second) := by
  rw [Marked, String.toList_append]
  exact marked_append (fun front back hsplit => hlasts (hfirst front back hsplit) _) hsecond

end SequenceChart.Text
