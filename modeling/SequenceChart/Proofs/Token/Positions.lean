import Mathlib.Data.Prod.Lex
import SequenceChart.Proofs.Token.Lossless

namespace SequenceChart

namespace Token

instance (text : List Char) (offset : Nat) : Decidable (BreaksAt text offset) :=
  inferInstanceAs (Decidable (_ ∨ _ ∧ _))

/-- The offsets of the line breaks in front of an offset, in order. -/
def breaksBefore (text : List Char) (offset : Nat) : List Nat :=
  (List.range offset).filter (BreaksAt text ·)

/-- Where the line starts that an offset lies on: behind the last line break in front of it, or at
    the start of the text. -/
def lineStart (text : List Char) (offset : Nat) : Nat :=
  ((breaksBefore text offset).getLast?.map (· + 1)).getD 0

/-- Tokens stand where they say. Their lines and columns follow from their offsets, one of them
    stands at each line break, and lines and columns order them as the offsets do. -/
structure Positioned (text : List Char) (tokens : List Token) : Prop where
  placed : ∀ token ∈ tokens, ∃ offset ≤ text.length, token.offset = offset ∧
    token.line = 1 + (breaksBefore text offset).length ∧
    token.column = 1 + (offset - lineStart text offset)
  breaks : (tokens.filter (·.kind = .lineBreak)).map offset =
    (breaksBefore text text.length).map Nat.cast
  compared : ∀ a ∈ tokens, ∀ b ∈ tokens,
    toLex (a.line, a.column) < toLex (b.line, b.column) ↔ a.offset < b.offset

theorem breaksBefore_add (text : List Char) (offset length : Nat) :
    breaksBefore text (offset + length) = breaksBefore text offset ++
      (List.range' offset length).filter (BreaksAt text ·) := by
  rw [breaksBefore, List.range_eq_range', ← List.range'_append_1, List.filter_append, Nat.zero_add,
    ← List.range_eq_range', breaksBefore]

theorem filter_breaksAt_eq_nil {text : List Char} {offset length : Nat}
    (hunbroken : ∀ inner < length, ¬ BreaksAt text (offset + inner)) :
    (List.range' offset length).filter (BreaksAt text ·) = [] := by
  refine List.filter_eq_nil_iff.2 fun other hother => ?_
  obtain ⟨hstart, hstop⟩ := List.mem_range'_1.1 hother
  obtain ⟨inner, rfl⟩ := Nat.exists_eq_add_of_le hstart
  simpa using hunbroken inner (by omega)

theorem breaksBefore_of_unbroken {text : List Char} {offset length : Nat}
    (hunbroken : ∀ inner < length, ¬ BreaksAt text (offset + inner)) :
    breaksBefore text (offset + length) = breaksBefore text offset := by
  rw [breaksBefore_add, filter_breaksAt_eq_nil hunbroken, List.append_nil]

theorem breaksBefore_of_breaksAt {text : List Char} {offset : Nat} (hbreak : BreaksAt text offset) :
    breaksBefore text (offset + 1) = breaksBefore text offset ++ [offset] := by
  rw [breaksBefore_add, List.range'_one, List.filter_cons_of_pos (by simpa using hbreak),
    List.filter_nil]

theorem breaksAt_length {c : Char} {rest : List Char} (hbreak : breaksLine c rest = true)
    (front : List Char) : BreaksAt (front ++ c :: rest) front.length :=
  (breaksAt_append front (c :: rest) 0).2 ((breaksAt_zero c rest).2 hbreak)

theorem Unbroken.not_breaksAt_append {source rest : List Char} (hunbroken : Unbroken source rest)
    (front : List Char) {inner : Nat} (hinner : inner < source.length) :
    ¬ BreaksAt (front ++ (source ++ rest)) (front.length + inner) := by
  rw [breaksAt_append]
  exact hunbroken.not_breaksAt hinner

theorem lineStart_le (text : List Char) (offset : Nat) : lineStart text offset ≤ offset := by
  cases hlast : (breaksBefore text offset).getLast? with
  | none => simp [lineStart, hlast]
  | some last =>
    have hmem := List.mem_of_getLast? hlast
    have hlt := List.mem_range.1 (List.mem_filter.1 hmem).1
    simp only [lineStart, hlast, Option.map_some, Option.getD_some]
    exact hlt

end Token

open Token

/-- The place that belongs to an offset. -/
def Place.ofOffset (text : List Char) (offset : Nat) : Place where
  line := 1 + (breaksBefore text offset).length
  column := 1 + (offset - lineStart text offset)
  offset := offset

namespace Place

theorem ofOffset_zero (text : List Char) : ofOffset text 0 = origin := rfl

/-- Along characters that no line ends at, only the column changes. -/
theorem ofOffset_advance {text : List Char} {offset length : Nat}
    (hunbroken : ∀ inner < length, ¬ BreaksAt text (offset + inner)) :
    ofOffset text (offset + length) = (ofOffset text offset).advance length := by
  have hle := lineStart_le text offset
  have hcolumn : 1 + (offset + length - lineStart text offset) =
      1 + (offset - lineStart text offset) + length := by omega
  simp only [ofOffset, advance, lineStart, breaksBefore_of_unbroken hunbroken] at hcolumn ⊢
  rw [hcolumn]

theorem ofOffset_nextLine {text : List Char} {offset : Nat} (hbreak : BreaksAt text offset) :
    ofOffset text (offset + 1) = (ofOffset text offset).nextLine := by
  simp [ofOffset, nextLine, lineStart, breaksBefore_of_breaksAt hbreak, Nat.add_assoc]

/-- The further behind in the text, the later the line, or the later the column on the same line. -/
theorem ofOffset_strictMono (text : List Char) :
    StrictMono fun offset => toLex ((ofOffset text offset).line, (ofOffset text offset).column) := by
  intro offset other hlt
  obtain ⟨length, rfl⟩ := Nat.exists_eq_add_of_le hlt.le
  have hsplit := breaksBefore_add text offset length
  refine Prod.Lex.toLex_lt_toLex'.2 ⟨?_, fun hline => ?_⟩
  · simp only [ofOffset, hsplit, List.length_append]
    omega
  · have hnone : (List.range' offset length).filter (BreaksAt text ·) = [] := by
      simp only [ofOffset, hsplit, List.length_append] at hline
      exact List.length_eq_zero_iff.1 (by omega)
    have hsame : lineStart text (offset + length) = lineStart text offset := by
      rw [lineStart, hsplit, hnone, List.append_nil, lineStart]
    have hle := lineStart_le text offset
    simp only [ofOffset, hsame]
    omega

end Place

namespace Token

/-- What is scanned behind a first part of a text stands at the places of its offsets. -/
theorem Scanned.placed {place : Place} {seen : List TokenKind} {back : List Char}
    {tokens : List Token} (hscanned : Scanned place seen back tokens) (front : List Char)
    (hplace : place = .ofOffset (front ++ back) front.length) :
    ∀ token ∈ tokens, ∃ offset ≤ (front ++ back).length, ∃ kind value length,
      token = (Place.ofOffset (front ++ back) offset).token kind value length := by
  induction hscanned generalizing front with
  | stop =>
    intro token htoken
    rw [List.mem_singleton.1 htoken, hplace]
    exact ⟨front.length, by simp, _, _, _, rfl⟩
  | @lineBreak place seen c rest tokens hbreak tail ih =>
    have hnext := ih (front ++ [c]) (by
      rw [hplace, ← Place.ofOffset_nextLine (breaksAt_length hbreak front)]
      simp)
    rw [List.append_assoc] at hnext
    refine List.forall_mem_cons.2 ⟨?_, hnext⟩
    rw [hplace]
    exact ⟨front.length, by simp, _, _, _, rfl⟩
  | @lexeme place seen lexeme rest tokens hreads hunbroken tail ih =>
    have hnext := ih (front ++ lexeme.source) (by
      rw [hplace, ← Place.ofOffset_advance fun _ => hunbroken.not_breaksAt_append front,
        List.append_assoc, List.length_append])
    rw [List.append_assoc] at hnext
    intro token htoken
    obtain htoken | htoken := List.mem_append.1 htoken
    · obtain ⟨kind, value, source, rfl, rfl⟩ := Lexeme.exists_of_mem_tokensAt htoken
      rw [hplace]
      exact ⟨front.length, by simp, _, _, _, rfl⟩
    · exact hnext token htoken

/-- Of what is scanned behind a first part of a text, one token stands at each line break. -/
theorem Scanned.breaks {place : Place} {seen : List TokenKind} {back : List Char}
    {tokens : List Token} (hscanned : Scanned place seen back tokens) (front : List Char)
    (hplace : place.offset = front.length) :
    (tokens.filter (·.kind = .lineBreak)).map offset =
      ((List.range' front.length back.length).filter (BreaksAt (front ++ back) ·)).map Nat.cast := by
  induction hscanned generalizing front with
  | stop => rfl
  | @lineBreak place seen c rest tokens hbreak tail ih =>
    have hat := breaksAt_length hbreak front
    have hnext := ih (front ++ [c]) (by simp [Place.nextLine, hplace])
    rw [List.append_assoc, List.singleton_append, List.length_append, List.length_singleton] at hnext
    rw [List.filter_cons_of_pos (by simp [Place.token]), List.length_cons, List.range'_succ,
      List.filter_cons_of_pos (by simpa using hat), List.map_cons, List.map_cons, hnext]
    simp [Place.token, hplace]
  | @lexeme place seen lexeme rest tokens hreads hunbroken tail ih =>
    have hkinds : (lexeme.tokensAt place).filter (·.kind = .lineBreak) = [] := by
      cases lexeme with
      | skipped source => rfl
      | token kind value source =>
        simpa [Lexeme.tokensAt, Place.token] using (kind_of_reads hreads).1.1
    have hnone := filter_breaksAt_eq_nil fun _ => hunbroken.not_breaksAt_append front
    have hnext := ih (front ++ lexeme.source) (by simp [Place.advance, hplace])
    rw [List.append_assoc, List.length_append] at hnext
    rw [List.filter_append, hkinds, List.nil_append, hnext, List.length_append,
      ← List.range'_append_1, List.filter_append, hnone, List.nil_append]

/-- Reading tokens keeps count of the lines and columns, whatever the text. -/
theorem ofText_positioned (text : String) : Positioned text.toList (ofText text) := by
  have hscanned := ofText_scanned text
  have hplaced : ∀ token ∈ ofText text, ∃ offset ≤ text.toList.length, token.offset = offset ∧
      token.line = (Place.ofOffset text.toList offset).line ∧
      token.column = (Place.ofOffset text.toList offset).column := by
    intro token htoken
    obtain ⟨offset, hle, kind, value, length, rfl⟩ :=
      hscanned.placed [] (Place.ofOffset_zero _).symm token htoken
    exact ⟨offset, hle, rfl, rfl, rfl⟩
  refine ⟨?_, ?_, ?_⟩
  · intro token htoken
    obtain ⟨offset, hle, hoffset, hline, hcolumn⟩ := hplaced token htoken
    refine ⟨offset, hle, hoffset, ?_, ?_⟩
    · simpa [Place.ofOffset] using hline
    · simpa [Place.ofOffset, Int.ofNat_sub (lineStart_le ..)] using hcolumn
  · simpa [breaksBefore, List.range_eq_range'] using hscanned.breaks [] rfl
  · intro a ha b hb
    obtain ⟨first, _, hfirst, hline, hcolumn⟩ := hplaced a ha
    obtain ⟨second, _, hsecond, hline', hcolumn'⟩ := hplaced b hb
    have hiff := (Place.ofOffset_strictMono text.toList).lt_iff_lt (a := first) (b := second)
    rw [Prod.Lex.toLex_lt_toLex] at hiff ⊢
    simpa only [hfirst, hsecond, hline, hline', hcolumn, hcolumn', Int.ofNat_lt, Int.ofNat_inj]
      using hiff

end Token

end SequenceChart
