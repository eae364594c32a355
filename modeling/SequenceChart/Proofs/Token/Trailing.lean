import Mathlib.Data.List.TakeWhile
import SequenceChart.Proofs.Token.Kinds
import SequenceChart.Proofs.Token.Spelled

namespace SequenceChart

namespace Text

theorem ne_of_isBlank {c d : Char} (hblank : isBlank c = true) (hd : isBlank d = false) : c ≠ d := by
  rintro rfl
  rw [hd] at hblank
  cases hblank

theorem isMark_of_isBlank {c : Char} (hblank : isBlank c = true) : isMark c = false := by
  have hall : ∀ bounds ∈ blankIntervals, ∀ n ∈ List.range' bounds.1 (bounds.2 + 1 - bounds.1),
      covers markIntervals n = false := by
    decide +kernel
  exact Lexeme.covers_of_isBlank hall hblank

end Text

namespace Token

/-- The token with more of its line in it, if it is a quoted name without a closing mark. Such a name
    is all that is left of its line. -/
def extend (tail : List Char) (token : Token) : Token :=
  if token.kind = .invalid ∧ token.value.toList.head? = some '"' then
    { token with
      value := String.ofList (token.value.toList ++ tail)
      length := token.length + tail.length }
  else token

theorem place_append (line start position : Nat) (front back : List Lexeme) :
    place line start position (front ++ back) =
      place line start position front ++
        place line start (position + (front.flatMap Lexeme.source).length) back := by
  induction front generalizing position with
  | nil => rfl
  | cons lexeme front ih =>
    cases lexeme <;> simp [place, ih, Lexeme.source, Nat.add_assoc]

end Token

namespace Lexeme

open Text Token

/-- What reading goes on with when there is more at the end of a line: the tokens that were read are
    the same, but for a quoted name without an end. Either the rest of the line has the same end, or
    all of it has been read. -/
structure Extends (tail : List Char) (read longer : List Lexeme × List Char) : Prop where
  placed : ∀ line start position, place line start position longer.1 =
    (place line start position read.1).map (Token.extend tail)
  rest : longer = (read.1, read.2 ++ tail) ∨ longer.2 = [] ∧ read.2 = []

variable {tail : List Char}

theorem head?_append_blank (htail : ∀ c ∈ tail, isBlank c = true) {d : Char} (hd : isBlank d = false)
    (rest : List Char) : (rest ++ tail).head? = some d ↔ rest.head? = some d := by
  cases rest with
  | cons c rest => rfl
  | nil =>
    cases tail with
    | nil => rfl
    | cons c tail =>
      have hc : c ≠ d := ne_of_isBlank (htail c List.mem_cons_self) hd
      simp [hc]

theorem startsComment_append_blank (htail : ∀ c ∈ tail, isBlank c = true) (c : Char)
    (rest : List Char) : startsComment c (rest ++ tail) = startsComment c rest := by
  simp only [startsComment, head?_append_blank htail (d := '/') (by decide)]

theorem splitInvalid_append_blank (htail : ∀ c ∈ tail, isBlank c = true) (rest : List Char) :
    splitInvalid (rest ++ tail) = ((splitInvalid rest).1, (splitInvalid rest).2 ++ tail) := by
  induction rest with
  | nil =>
    cases tail with
    | nil => rfl
    | cons c tail => simp [splitInvalid, endsInvalid, htail c List.mem_cons_self]
  | cons c rest ih =>
    have hends : endsInvalid c (rest ++ tail) = endsInvalid c rest := by
      simp only [endsInvalid, startsComment_append_blank htail]
    simp only [List.cons_append, splitInvalid, hends, ih]
    split <;> rfl

theorem splitArrow_of_head? {rest : List Char} (hdash : rest.head? ≠ some '-')
    (harrow : rest.head? ≠ some '>') : splitArrow rest = (['-'], rest) := by
  unfold splitArrow
  split
  · exact absurd rfl hdash
  · exact absurd rfl hdash
  · exact absurd rfl harrow
  · rfl

theorem splitArrow_append_blank (htail : ∀ c ∈ tail, isBlank c = true) (rest : List Char) :
    splitArrow (rest ++ tail) = ((splitArrow rest).1, (splitArrow rest).2 ++ tail) := by
  have hdash := head?_append_blank htail (d := '-') (by decide)
  have harrow := head?_append_blank htail (d := '>') (by decide)
  by_cases hfirst : rest.head? = some '-'
  · obtain ⟨after, rfl⟩ := List.head?_eq_some_iff.1 hfirst
    by_cases hsecond : after.head? = some '>'
    · obtain ⟨after, rfl⟩ := List.head?_eq_some_iff.1 hsecond
      rfl
    · have htwo {after : List Char} (hafter : after.head? ≠ some '>') :
          splitArrow ('-' :: after) = (['-', '-'], after) := by
        cases after with
        | nil => rfl
        | cons c after =>
          have hc : c ≠ '>' := fun hc => hafter (congrArg some hc)
          simp [splitArrow, hc]
      rw [List.cons_append, htwo hsecond, htwo (mt (harrow after).1 hsecond)]
  · by_cases hsecond : rest.head? = some '>'
    · obtain ⟨after, rfl⟩ := List.head?_eq_some_iff.1 hsecond
      rfl
    · rw [splitArrow_of_head? hfirst hsecond,
        splitArrow_of_head? (mt (hdash rest).1 hfirst) (mt (harrow rest).1 hsecond)]

/-- Where a run of characters of a class stops does not depend on what is put at the end of the
    text. -/
theorem span_append_of_stop {p : Char → Bool} {text : List Char} (hstop : text.dropWhile p ≠ [])
    (more : List Char) :
    (text ++ more).takeWhile p = text.takeWhile p ∧
      (text ++ more).dropWhile p = text.dropWhile p ++ more := by
  induction text with
  | nil => exact absurd rfl hstop
  | cons c text ih =>
    cases hc : p c with
    | true =>
      have hrest := ih (by simpa [hc] using hstop)
      simp [hc, hrest]
    | false => simp [hc]

theorem span_append_blank (htail : ∀ c ∈ tail, isBlank c = true) {p : Char → Bool}
    (hp : ∀ c, isBlank c = true → p c = false) (rest : List Char) :
    (rest ++ tail).takeWhile p = rest.takeWhile p ∧
      (rest ++ tail).dropWhile p = rest.dropWhile p ++ tail := by
  induction rest with
  | nil =>
    cases tail with
    | nil => exact ⟨rfl, rfl⟩
    | cons c tail => simp [hp c (htail c List.mem_cons_self)]
  | cons c rest ih =>
    cases hc : p c with
    | true => simp [hc, ih]
    | false => simp [hc]

theorem continuesName_of_isBlank {c : Char} (hblank : isBlank c = true) : continuesName c = false := by
  rw [continuesName, startsName_of_isGap (isGap_of_isBlank hblank), isMark_of_isBlank hblank,
    Bool.or_self]

theorem trimEnd_append_blank (htail : ∀ c ∈ tail, isBlank c = true) (text : List Char) :
    trimEnd isBlank (text ++ tail) = trimEnd isBlank text := by
  rw [trimEnd, List.reverse_append, List.dropWhile_append_of_pos, trimEnd]
  intro c hc
  exact htail c (List.mem_reverse.1 hc)

/-- White space at the end of a line does not belong to its free text. -/
theorem place_freeText_append (htail : ∀ c ∈ tail, isBlank c = true) (line start position : Nat)
    (rest : List Char) :
    place line start position (freeText (rest ++ tail)) =
      place line start position (freeText rest) := by
  by_cases hmargin : rest.dropWhile isMargin = []
  · have hinner : ∀ c ∈ tail.dropWhile isMargin, isBlank c = true := fun c hc =>
      htail c ((List.dropWhile_suffix isMargin).subset hc)
    have hblank : trimEnd isBlank (tail.dropWhile isMargin) = [] := trimEnd_append_blank hinner []
    have hbody : (rest ++ tail).dropWhile isMargin = tail.dropWhile isMargin := by
      rw [List.dropWhile_append, hmargin]
      rfl
    simp only [freeText, hbody, hblank, hmargin]
    rfl
  · obtain ⟨hstart, hbody⟩ := span_append_of_stop hmargin tail
    simp only [freeText, hbody, hstart, trimEnd_append_blank htail]
    split <;> rfl

theorem map_extend_freeText (line start position : Nat) (rest : List Char) :
    (place line start position (freeText rest)).map (Token.extend tail) =
      place line start position (freeText rest) := by
  simp only [freeText]
  split <;> simp [place, Token.extend]

theorem followed_extends (htail : ∀ c ∈ tail, isBlank c = true) {kind : TokenKind}
    {value : List Char} (hvalue : kind = .invalid → value.head? ≠ some '"') (source rest : List Char) :
    Extends tail (followed kind value source rest) (followed kind value source (rest ++ tail)) := by
  have hkept (line start position : Nat) :
      (place line start position [token kind value source]).map (Token.extend tail) =
        place line start position [token kind value source] := by
    have hclosed : ¬ (kind = .invalid ∧ (String.ofList value).toList.head? = some '"') := by
      rw [String.toList_ofList]
      exact fun hopen => hvalue hopen.1 hopen.2
    simp only [place, List.map_singleton, Token.extend, hclosed, if_false]
  unfold followed
  split
  · refine ⟨fun line start position => ?_, .inr ⟨rfl, rfl⟩⟩
    have hsplit (after : List Char) :
        place line start position (token kind value source :: freeText after) =
          place line start position [token kind value source] ++
            place line start (position + source.length) (freeText after) := rfl
    rw [hsplit, hsplit, place_freeText_append htail, List.map_append, hkept, map_extend_freeText]
  · exact ⟨fun line start position => (hkept line start position).symm, .inl rfl⟩

theorem followed_extends_of_kind (htail : ∀ c ∈ tail, isBlank c = true) {kind : TokenKind}
    (hkind : kind ≠ .invalid) (value source rest : List Char) :
    Extends tail (followed kind value source rest) (followed kind value source (rest ++ tail)) :=
  followed_extends htail (absurd · hkind) source rest

/-- White space starts nothing new behind what a line goes on with. -/
theorem next_extends (htail : ∀ c ∈ tail, isBlank c = true) (seen : List TokenKind) (c : Char)
    (rest : List Char) : Extends tail (next seen c rest) (next seen c (rest ++ tail)) := by
  simp only [next, startsComment_append_blank htail]
  split
  · exact ⟨fun _ _ _ => rfl, .inl rfl⟩
  split
  · exact ⟨fun _ _ _ => rfl, .inr ⟨rfl, rfl⟩⟩
  split
  · exact followed_extends_of_kind htail (by decide) [c] [c] rest
  split
  · rw [splitArrow_append_blank htail]
    exact followed_extends_of_kind htail (by decide) _ _ _
  split
  · next hquote =>
    subst hquote
    cases hclose : rest.dropWhile (· ≠ '"') with
    | nil =>
      have hopen : (rest ++ tail).dropWhile (· ≠ '"') = [] := by
        rw [List.dropWhile_eq_nil_iff] at hclose ⊢
        refine List.forall_mem_append.2 ⟨hclose, fun d hd => ?_⟩
        rw [decide_eq_true_eq]
        exact ne_of_isBlank (htail d hd) (by decide)
      rw [hopen]
      refine ⟨fun line start position => ?_, .inr ⟨rfl, rfl⟩⟩
      simp [place, Token.extend]
      omega
    | cons quote after =>
      have hstop : rest.dropWhile (· ≠ '"') ≠ [] := by
        rw [hclose]
        exact List.cons_ne_nil quote after
      obtain ⟨htake, hdrop⟩ := span_append_of_stop hstop tail
      rw [htake, hdrop, hclose]
      exact followed_extends_of_kind htail (by decide) _ _ after
  split
  · obtain ⟨htake, hdrop⟩ := span_append_blank htail (fun _ => continuesName_of_isBlank) rest
    rw [htake, hdrop]
    exact followed_extends_of_kind htail (wordKind_ne _ _ (by simp) (by simp)) _ _ _
  · next hquote _ =>
    rw [splitInvalid_append_blank htail]
    exact followed_extends htail (fun _ hhead => hquote (by simpa using hhead)) _ _

/-- White space between tokens holds none. -/
theorem place_ofLine_blank (htail : ∀ c ∈ tail, isBlank c = true) (line start position : Nat)
    (seen : List TokenKind) : place line start position (ofLine seen tail) = [] := by
  rw [← List.map_eq_nil_iff, map_unplaced_place]
  exact contents_blank fun c hc => isGap_of_isBlank (htail c hc)

/-- White space at the end of a line does not change its tokens, but for a quoted name without an
    end, which reaches up to the end of the line. -/
theorem place_ofLine_append (htail : ∀ c ∈ tail, isBlank c = true) (line start position : Nat)
    (seen : List TokenKind) (source : List Char) :
    place line start position (ofLine seen (source ++ tail)) =
      (place line start position (ofLine seen source)).map (Token.extend tail) := by
  fun_induction ofLine seen source generalizing position with
  | case1 seen =>
    exact place_ofLine_blank htail line start position seen
  | case2 seen c rest ih =>
    obtain ⟨hplaced, hrest⟩ := next_extends htail seen c rest
    rw [List.cons_append, ofLine, place_append, place_append, hplaced, List.map_append]
    congr 1
    obtain hrest | ⟨hlonger, hread⟩ := hrest
    · rw [hrest]
      exact ih _
    · rw [hlonger, hread, ofLine, ofLine]
      rfl

end Lexeme

end SequenceChart
