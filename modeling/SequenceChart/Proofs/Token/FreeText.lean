import SequenceChart.Proofs.Token.Kinds
import SequenceChart.Proofs.Token.Spelled

namespace SequenceChart.Lexeme

open Text Token

/-- Free text stands among lexemes only where it is read as such: right behind a token that takes
    some, and in front of nothing but white space. -/
inductive TextLast : List Lexeme → Prop where
  | nil : TextLast []
  | skipped {source : List Char} {lexemes : List Lexeme} (tail : TextLast lexemes) :
      TextLast (.skipped source :: lexemes)
  | token {kind : TokenKind} {value source : List Char} {lexemes : List Lexeme} (hkind : kind ≠ .text)
      (htakes : takesText kind = false) (tail : TextLast lexemes) :
      TextLast (.token kind value source :: lexemes)
  | opener {kind : TokenKind} {value source : List Char} (rest : List Char)
      (htakes : takesText kind = true) : TextLast (.token kind value source :: freeText rest)

/-- A line goes on with something to skip, or with a token, which is no free text, and the free text
    that belongs to it. -/
theorem next_cases (seen : List TokenKind) (c : Char) (rest : List Char) :
    (∃ source after, next seen c rest = ([skipped source], after)) ∨
      ∃ kind value source after, kind ≠ .text ∧ next seen c rest = followed kind value source after := by
  unfold next
  split
  · exact .inl ⟨_, _, rfl⟩
  split
  · exact .inl ⟨_, _, rfl⟩
  split
  · exact .inr ⟨_, _, _, _, by decide, rfl⟩
  split
  · exact .inr ⟨_, _, _, _, by decide, rfl⟩
  split
  · split
    · exact .inr ⟨.invalid, c :: rest, c :: rest, [], by decide, rfl⟩
    · exact .inr ⟨_, _, _, _, by decide, rfl⟩
  split
  · exact .inr ⟨_, _, _, _, wordKind_ne _ _ (by simp) (by simp), rfl⟩
  · exact .inr ⟨_, _, _, _, by decide, rfl⟩

theorem next_textLast (seen later : List TokenKind) (c : Char) (rest : List Char)
    (htail : TextLast (ofLine later (next seen c rest).2)) :
    TextLast ((next seen c rest).1 ++ ofLine later (next seen c rest).2) := by
  obtain ⟨source, after, hnext⟩ | ⟨kind, value, source, after, hkind, hnext⟩ := next_cases seen c rest
  · rw [hnext] at htail ⊢
    exact .skipped htail
  · rw [hnext] at htail ⊢
    unfold followed at htail ⊢
    split at htail
    · next htakes =>
      rw [if_pos htakes, ofLine, List.append_nil]
      exact .opener after htakes
    · next htakes =>
      rw [if_neg htakes]
      exact .token hkind (by simpa using htakes) htail

/-- Free text comes last on every line. -/
theorem ofLine_textLast (seen : List TokenKind) (line : List Char) : TextLast (ofLine seen line) := by
  fun_induction ofLine with
  | case1 => exact .nil
  | case2 seen c rest ih => exact next_textLast seen _ c rest ih

theorem filterMap_token?_freeText (rest : List Char) :
    (freeText rest).filterMap token? =
      if trimEnd isBlank (rest.dropWhile isMargin) = [] then []
      else [.plain .text (String.ofList (trimEnd isBlank (rest.dropWhile isMargin)))] := by
  simp only [freeText, List.isEmpty_iff]
  split <;> rfl

/-- Free text is one token, or none. -/
theorem filterMap_kind?_freeText (rest : List Char) :
    (freeText rest).filterMap kind? = [] ∨ (freeText rest).filterMap kind? = [.text] := by
  simp only [freeText]
  split
  · exact .inl rfl
  · exact .inr rfl

theorem freeText_eq_append {rest : List Char} {front back : List Lexeme} {kind : TokenKind}
    {value source : List Char} (hsplit : freeText rest = front ++ .token kind value source :: back) :
    kind = .text ∧ front.filterMap kind? = [] := by
  have hkinds : (freeText rest).filterMap kind? =
      front.filterMap kind? ++ kind :: back.filterMap kind? := by
    rw [hsplit, List.filterMap_append, filterMap_kind?_token]
  obtain hnone | hone := filterMap_kind?_freeText rest
  · rw [hnone] at hkinds
    simp at hkinds
  · rw [hone, eq_comm, List.append_eq_singleton_iff] at hkinds
    obtain ⟨hfront, hkind⟩ | ⟨_, hkind⟩ := hkinds
    · exact ⟨(List.cons.inj hkind).1, hfront⟩
    · cases hkind

/-- The last token in front of free text is one that takes some. -/
theorem TextLast.exists_opener {front back : List Lexeme} {value source : List Char}
    (hlast : TextLast (front ++ .token .text value source :: back)) :
    ∃ earlier kind, front.filterMap kind? = earlier ++ [kind] ∧ takesText kind = true := by
  induction front with
  | nil =>
    cases hlast with
    | token hkind => exact absurd rfl hkind
    | opener _ htakes => cases htakes
  | cons lexeme front ih =>
    rw [List.cons_append] at hlast
    generalize hrest : front ++ .token .text value source :: back = lexemes at hlast ih
    -- Only behind the opener itself is the text not found further on, by induction.
    cases hlast with
    | skipped tail =>
      obtain ⟨earlier, kind, hfront, htakes⟩ := ih tail
      exact ⟨earlier, kind, hfront, htakes⟩
    | @token first _ _ _ _ _ tail =>
      obtain ⟨earlier, kind, hfront, htakes⟩ := ih tail
      exact ⟨first :: earlier, kind, by simp [hfront], htakes⟩
    | @opener first _ _ rest htakes =>
      obtain ⟨_, hfront⟩ := freeText_eq_append hrest.symm
      exact ⟨[], first, by simp [hfront], htakes⟩

/-- Behind a token that takes free text stands nothing else. -/
theorem TextLast.eq_freeText {front back : List Lexeme} {kind : TokenKind} {value source : List Char}
    (hlast : TextLast (front ++ .token kind value source :: back)) (htakes : takesText kind = true) :
    ∃ rest, back = freeText rest := by
  induction front with
  | nil =>
    cases hlast with
    | token _ hnone => exact absurd htakes (by simpa using hnone)
    | opener rest => exact ⟨rest, rfl⟩
  | cons lexeme front ih =>
    rw [List.cons_append] at hlast
    generalize hrest : front ++ .token kind value source :: back = lexemes at hlast ih
    cases hlast with
    | skipped tail => exact ih tail
    | token _ _ tail => exact ih tail
    | opener rest =>
      obtain ⟨rfl, _⟩ := freeText_eq_append hrest.symm
      cases htakes

end SequenceChart.Lexeme
