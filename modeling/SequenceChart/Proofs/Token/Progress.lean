import Mathlib.Logic.Function.Iterate
import SequenceChart.Proofs.Token.Passes

namespace SequenceChart

open Lexeme Token

/-- Lexemes that are not skipped start with a token. -/
theorem Lexeme.next_emits {seen : List TokenKind} {c : Char} {rest : List Char}
    (hgap : isGap c = false) (hcomment : startsComment c rest = false) :
    (next seen c rest).1.filterMap kind? ≠ [] := by
  have hfollowed (kind : TokenKind) (value covered rest : List Char) :
      (followed kind value covered rest).1.filterMap kind? ≠ [] := by
    unfold followed
    split
    · exact List.cons_ne_nil _ _
    · exact List.cons_ne_nil _ _
  simp only [next, hgap, hcomment, Bool.false_eq_true, if_false]
  split
  · apply hfollowed
  split
  · apply hfollowed
  split
  · split
    · exact List.cons_ne_nil _ _
    · apply hfollowed
  split
  · apply hfollowed
  · apply hfollowed

/-- A text has at most one token for each character, and one for its end. -/
theorem Token.Scanned.length_le {place : Place} {seen : List TokenKind} {text : List Char}
    {tokens : List Token} (hscanned : Scanned place seen text tokens) :
    tokens.length ≤ text.length + 1 := by
  induction hscanned with
  | stop => exact Nat.le_refl _
  | lineBreak hbreak tail ih => exact Nat.succ_le_succ ih
  | @lexeme place seen lexeme rest tokens hreads hunbroken tail ih =>
    cases lexeme with
    | skipped source =>
      simp only [tokensAt, List.nil_append, List.length_append]
      omega
    | token kind value source =>
      have hpositive := List.length_pos_iff.2 (spells_of_reads hreads place).1
      simp only [tokensAt, Lexeme.source, List.length_append, List.length_singleton]
      omega

namespace Scanner

/-- Characters are read between two states, one at least. -/
def ReadsOn (scanner later : Scanner) : Prop :=
  ∃ front, front ≠ [] ∧ scanner.rest = front ++ later.rest ∧
    later.place.offset = scanner.place.offset + front.length

/-- Tokens are emitted between two states, one at least. -/
def EmitsOn (scanner later : Scanner) : Prop :=
  ∃ emitted, emitted ≠ [] ∧ later.tokens = scanner.tokens ++ emitted

section Pass

variable {scanner : Scanner}

theorem exists_faces (scanner : Scanner) : ∃ line after, scanner.Faces line after := by
  have hlines := splitLines_lines scanner.rest
  generalize (splitLines scanner.rest).1 = first at hlines
  generalize (splitLines scanner.rest).2 = others at hlines
  generalize hrest : scanner.rest = text at hlines
  cases hlines with
  | last hunbroken =>
    exact ⟨first, [], by rw [hrest, List.append_nil], hunbroken, atLineEnd_nil⟩
  | @cons _ tail _ c _ hunbroken hbreak _ =>
    exact ⟨first, c :: tail, hrest, hunbroken, atLineEnd_cons hbreak⟩

theorem pass_lineBreak {c : Char} {rest : List Char} (hrest : scanner.rest = c :: rest)
    (hbreak : breaksLine c rest = true) :
    scanner.pass = ⟨scanner.place.nextLine, rest,
      scanner.tokens ++ [scanner.place.token .lineBreak "\n" 1], []⟩ := by
  simp only [pass, hrest, hbreak, if_true, emit, advance, Place.after]

/-- A pass reads on, wherever in a text the scanner is. -/
theorem pass_readsOn (hrest : scanner.rest ≠ []) : scanner.ReadsOn scanner.pass := by
  obtain ⟨line, after, hfaces⟩ := exists_faces scanner
  cases line with
  | nil =>
    obtain ⟨c, rest, hcons⟩ := List.exists_cons_of_ne_nil hrest
    have hbreak : breaksLine c rest = true := hfaces.ended c rest (hfaces.rest.symm.trans hcons)
    rw [pass_lineBreak hcons hbreak]
    exact ⟨[c], List.cons_ne_nil _ _, hcons, rfl⟩
  | cons c line =>
    have hsource := next_source (scanner.line.map kind) c line
    have hshorter := next_length_le (scanner.line.map kind) c line
    rw [pass_eq hfaces]
    refine ⟨(next (scanner.line.map kind) c line).1.flatMap source, ?_, ?_, ?_⟩
    · intro hnone
      rw [hnone, List.nil_append] at hsource
      rw [hsource, List.length_cons] at hshorter
      omega
    · rw [← hsource] at hfaces
      rw [hfaces.foldl.rest, hfaces.rest, List.append_assoc]
    · rw [foldl_follow_place]
      rfl

theorem exists_faces_of_startsToken (hstarts : scanner.startsToken = true) :
    ∃ c line after, scanner.Faces (c :: line) after ∧ isGap c = false ∧
      startsComment c line = false := by
  obtain ⟨line, after, hfaces⟩ := exists_faces scanner
  have hfront := hfaces.rest
  unfold startsToken at hstarts
  split at hstarts
  · cases hstarts
  · next c rest hrest =>
    simp only [Bool.not_eq_true', Bool.or_eq_false_iff] at hstarts
    obtain ⟨⟨hbreak, hgap⟩, hcomment⟩ := hstarts
    cases line with
    | nil =>
      have hends := hfaces.ended c rest (hfront.symm.trans hrest)
      rw [hbreak] at hends
      cases hends
    | cons d line =>
      obtain ⟨rfl, rfl⟩ := List.cons.inj (hfront.symm.trans hrest)
      exact ⟨d, line, after, hfaces, hgap, (startsComment_append hfaces.ended).symm.trans hcomment⟩

theorem pass_eq_scanToken (hstarts : scanner.startsToken = true) :
    scanner.pass = scanner.scanToken := by
  obtain ⟨c, line, after, hfaces, hgap, hcomment⟩ := exists_faces_of_startsToken hstarts
  rw [pass_eq hfaces, scanToken_eq hfaces hgap hcomment]

/-- Reading a token emits one at least. -/
theorem scanToken_emitsOn (hstarts : scanner.startsToken = true) :
    scanner.EmitsOn scanner.scanToken := by
  obtain ⟨c, line, after, hfaces, hgap, hcomment⟩ := exists_faces_of_startsToken hstarts
  obtain ⟨emitted, htokens, -, hkinds⟩ :=
    foldl_follow_emits (next (scanner.line.map kind) c line).1 scanner
  rw [scanToken_eq hfaces hgap hcomment]
  refine ⟨emitted, ?_, htokens⟩
  rintro rfl
  exact next_emits hgap hcomment hkinds.symm

end Pass

section Run

variable {scanner : Scanner} {line after : List Char}

/-- Passes read a line as its lexemes, given the tokens before it. -/
theorem exists_passes_line {seen : List TokenKind} (hfaces : scanner.Faces line after)
    (hseen : scanner.line.map kind = seen) :
    ∃ n ≤ line.length, pass^[n] scanner = (Lexeme.ofLine seen line).foldl follow scanner := by
  fun_induction Lexeme.ofLine generalizing scanner with
  | case1 => exact ⟨0, Nat.le_refl _, rfl⟩
  | case2 seen c rest ih =>
    have hpass := pass_eq hfaces
    rw [hseen] at hpass
    obtain ⟨emitted, -, hline, hkinds⟩ := foldl_follow_emits (next seen c rest).1 scanner
    have hnext : ((next seen c rest).1.foldl follow scanner).Faces (next seen c rest).2 after := by
      rw [← next_source seen] at hfaces
      exact hfaces.foldl
    obtain ⟨n, hn, hpasses⟩ := ih hnext (by rw [hline, List.map_append, hseen, hkinds])
    refine ⟨n + 1, ?_, ?_⟩
    · have hshorter := next_length_le seen c rest
      rw [List.length_cons]
      omega
    · rw [Function.iterate_succ_apply, hpass, hpasses, List.foldl_append]

/-- From the start of a line on, passes read it as its tokens. -/
theorem exists_passes_ofLine {number begin : Nat} (hfaces : scanner.Faces line after)
    (hplace : scanner.place = ⟨number, 1, begin⟩) (hline : scanner.line = []) :
    ∃ n ≤ line.length, (pass^[n] scanner).rest = after ∧
      (pass^[n] scanner).place = ⟨number, line.length + 1, begin + line.length⟩ ∧
      (pass^[n] scanner).tokens = scanner.tokens ++ Token.ofLine number begin line := by
  have hseen : scanner.line.map kind = [] := by rw [hline, List.map_nil]
  obtain ⟨n, hn, hpasses⟩ := exists_passes_line hfaces hseen
  have hsource := Lexeme.ofLine_source [] line
  have hend : ((Lexeme.ofLine [] line).foldl follow scanner).Faces [] after := by
    rw [← hsource, ← List.append_nil (List.flatMap _ _)] at hfaces
    exact hfaces.foldl
  have hbegin : scanner.place = ⟨number, 0 + 1, begin + 0⟩ := hplace
  refine ⟨n, hn, ?_, ?_, ?_⟩
  · rw [hpasses, hend.rest, List.nil_append]
  · rw [hpasses, foldl_follow_place, hsource, hbegin, Place.advance_mk, Nat.zero_add]
  · rw [hpasses, foldl_follow_tokens _ hbegin, Token.ofLine]

/-- Passes read the lines of a text, each as its tokens, and nothing is left. -/
theorem exists_passes_ofLines {text first : List Char} {others : List (List Char)}
    (hlines : Lines text first others) {number begin : Nat} (hrest : scanner.rest = text)
    (hplace : scanner.place = ⟨number, 1, begin⟩) (hline : scanner.line = []) :
    ∃ n ≤ text.length, (pass^[n] scanner).rest = [] ∧
      (pass^[n] scanner).finish = scanner.tokens ++ ofLines number begin first others := by
  induction hlines generalizing scanner number begin with
  | @last first hunbroken =>
    have hfaces : scanner.Faces first [] :=
      ⟨by rw [hrest, List.append_nil], hunbroken, atLineEnd_nil⟩
    obtain ⟨n, hn, hread, hstop, htokens⟩ := exists_passes_ofLine hfaces hplace hline
    refine ⟨n, hn, hread, ?_⟩
    rw [finish, htokens, hstop, List.append_assoc]
    rfl
  | @cons first tail following c lines hunbroken hbreak htail ih =>
    have hfaces : scanner.Faces first (c :: tail) := ⟨hrest, hunbroken, atLineEnd_cons hbreak⟩
    obtain ⟨n, hn, hread, hstop, htokens⟩ := exists_passes_ofLine hfaces hplace hline
    have hpass := pass_lineBreak hread hbreak
    rw [hstop, htokens] at hpass
    obtain ⟨m, hm, hrest, hfinish⟩ := @ih (pass (pass^[n] scanner)) (number + 1)
      (begin + first.length + 1) (by rw [hpass]) (by rw [hpass]; rfl) (by rw [hpass])
    have hsteps : pass^[m + (n + 1)] scanner = pass^[m] (pass (pass^[n] scanner)) := by
      rw [Function.iterate_add_apply, Function.iterate_succ_apply']
    refine ⟨m + (n + 1), ?_, ?_, ?_⟩
    · simp only [List.length_append, List.length_cons]
      omega
    · rw [hsteps, hrest]
    · rw [hsteps, hfinish, hpass, List.append_assoc, List.append_assoc]
      rfl

/-- The loop reads all of a text, and emits its tokens. -/
theorem exists_passes_ofText (text : String) :
    ∃ n ≤ text.length, (pass^[n] (start text)).rest = [] ∧
      (pass^[n] (start text)).finish = ofText text :=
  exists_passes_ofLines (splitLines_lines text.toList) rfl rfl rfl

/-- Every pass over a text reads on, and every token that is read is emitted, so that the loop ends
    with the tokens of the text. There is at most one for each character, and one for the end. -/
structure Progress (text : String) : Prop where
  reads : ∀ n, (pass^[n] (start text)).rest ≠ [] →
    (pass^[n] (start text)).ReadsOn (pass^[n + 1] (start text))
  emits : ∀ n, (pass^[n] (start text)).startsToken = true →
    pass^[n + 1] (start text) = (pass^[n] (start text)).scanToken ∧
      (pass^[n] (start text)).EmitsOn (pass^[n + 1] (start text))
  ends : ∃ n ≤ text.length, (pass^[n] (start text)).rest = [] ∧
    (pass^[n] (start text)).finish = ofText text
  bounded : (ofText text).length ≤ text.length + 1

theorem Progress.of_text (text : String) : Progress text where
  reads n hrest := by
    rw [Function.iterate_succ_apply']
    exact pass_readsOn hrest
  emits n hstarts := by
    rw [Function.iterate_succ_apply', pass_eq_scanToken hstarts]
    exact ⟨rfl, scanToken_emitsOn hstarts⟩
  ends := exists_passes_ofText text
  bounded := (ofText_scanned text).length_le

end Run

end Scanner

end SequenceChart
