import SequenceChart.Proofs.Text.Marked
import SequenceChart.Proofs.Theme.Hex
import SequenceChart.Proofs.Xml.Grammar

namespace SequenceChart.Xml

/-- What may stand between the ampersand and the semicolon of a reference: the name of an entity, or
    the number of a character. -/
def Refers (body : List Char) : Prop :=
  isName (String.ofList body) ∨
    ∃ digits, digits ≠ [] ∧ (body = '#' :: digits ∧ (∀ c ∈ digits, c.isDigit) ∨
      body = '#' :: 'x' :: digits ∧ ∀ c ∈ digits, Text.IsHexDigit c)

/-- What stands behind the ampersand of a reference. -/
def RefersFirst (text : List Char) : Prop :=
  ∃ body rest, Refers body ∧ text = body ++ ';' :: rest

/-- A text in which every ampersand begins a reference. -/
def Referring (text : String) : Prop :=
  Text.Marked '&' RefersFirst text

theorem continuesName_of_isName {name : String} (hname : isName name) {c : Char}
    (hc : c ∈ name.toList) : continuesName c := by
  unfold isName at hname
  split at hname
  · cases hname
  · next first rest hfirst =>
    obtain ⟨hstarts, hrest⟩ := Bool.and_eq_true_iff.1 hname
    rw [hfirst] at hc
    obtain rfl | hc := List.mem_cons.1 hc
    · rw [continuesName, hstarts, Bool.true_or]
    · exact List.all_eq_true.1 hrest c hc

theorem Refers.quote_notMem {body : List Char} (hbody : Refers body) : '\'' ∉ body := by
  intro hquote
  obtain hname | ⟨digits, -, ⟨rfl, hdigits⟩ | ⟨rfl, hdigits⟩⟩ := hbody
  · rw [← String.toList_ofList (l := body)] at hquote
    exact absurd (continuesName_of_isName hname hquote) (by decide)
  · exact absurd (hdigits '\'' (by simpa using hquote)) (by decide)
  · exact absurd (hdigits '\'' (by simpa using hquote)) (by decide)

theorem RefersFirst.append {text : List Char} (htext : RefersFirst text) (rest : List Char) :
    RefersFirst (text ++ rest) := by
  obtain ⟨body, behind, hbody, rfl⟩ := htext
  exact ⟨body, behind ++ rest, hbody, by simp⟩

/-- No reference goes on behind a quote. -/
theorem RefersFirst.of_append {text rest : List Char} (htext : RefersFirst (text ++ '\'' :: rest)) :
    RefersFirst text := by
  obtain ⟨body, behind, hbody, hsplit⟩ := htext
  obtain ⟨between, rfl, hrest⟩ | ⟨between, rfl, hrest⟩ := List.append_eq_append_iff.1 hsplit
  · -- The body would have the quote in it, or the quote would be the semicolon.
    cases between with
    | nil => simp at hrest
    | cons c between =>
      obtain ⟨rfl, -⟩ := List.cons.inj hrest
      exact absurd (List.mem_append_right _ List.mem_cons_self) hbody.quote_notMem
  · cases between with
    | nil => simp at hrest
    | cons c between =>
      obtain ⟨rfl, -⟩ := List.cons.inj hrest
      exact ⟨body, between, hbody, rfl⟩

theorem Referring.append {first second : String} (hfirst : Referring first)
    (hsecond : Referring second) : Referring (first ++ second) :=
  Text.Marked.append RefersFirst.append hfirst hsecond

/-- The ampersands of a text in quotes begin references if and only if those of the whole do. -/
theorem referring_quoted_iff {front text back : String} (hfront : Referring front)
    (hback : Referring back) : Referring (front ++ text ++ "'" ++ back) ↔ Referring text := by
  constructor
  · intro hwhole before after hsplit
    have hsecond : RefersFirst (after ++ '\'' :: back.toList) :=
      hwhole (front.toList ++ before) _ (by simp [hsplit])
    exact hsecond.of_append
  · intro htext
    have hquote : Referring "'" := Text.marked_of_notMem (by decide)
    exact ((hfront.append htext).append hquote).append hback

end SequenceChart.Xml
