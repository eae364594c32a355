import Mathlib.Tactic.MkIffOfInductiveProp
import SequenceChart.Proofs.Token.Reading

namespace SequenceChart

namespace Token

/-- A token without a place. -/
def plain (kind : TokenKind) (value : String) : Token where
  kind := kind
  value := value
  line := 0
  column := 0
  offset := 0
  length := 0

/-- The token without its place. -/
def unplaced (token : Token) : Token :=
  plain token.kind token.value

/-- No character ends a line. -/
def OneLine (cs : List Char) : Prop :=
  ∀ c ∈ cs, c ≠ '\n' ∧ c ≠ '\r'

instance (cs : List Char) : Decidable (OneLine cs) :=
  List.decidableBAll _ cs

theorem OneLine.append {front back : List Char} (hfront : OneLine front) (hback : OneLine back) :
    OneLine (front ++ back) :=
  List.forall_mem_append.2 ⟨hfront, hback⟩

theorem splitLines_of_oneLine {line : List Char} (hline : OneLine line) :
    splitLines line = (line, []) := by
  induction line with
  | nil => rfl
  | cons c rest ih =>
    obtain ⟨⟨hfeed, hreturn⟩, hrest⟩ := List.forall_mem_cons.1 hline
    simp [splitLines, breaksLine, hfeed, hreturn, ih hrest]

end Token

namespace Lexeme

open Text Token

/-- The token of a lexeme, without a place. -/
def token? : Lexeme → Option Token
  | skipped _ => none
  | token kind value _ => some (.plain kind (String.ofList value))

/-- The tokens that a line goes on with, without their places. -/
def contents (seen : List TokenKind) (line : List Char) : List Token :=
  (ofLine seen line).filterMap token?

/-- The tokens after one of a given kind. -/
def contentsAfter (seen : List TokenKind) (kind : TokenKind) (rest : List Char) : List Token :=
  if takesText kind then (freeText rest).filterMap token? else contents (seen ++ [kind]) rest

/-- A name that needs no quote marks. -/
def isWord : List Char → Bool
  | [] => false
  | c :: rest => startsName c && rest.all continuesName

/-- Text that is read as it stands behind a space. -/
@[mk_iff]
structure IsText (text : List Char) : Prop where
  filled : text ≠ []
  oneLine : OneLine text
  start : ∀ c ∈ text.head?, isMargin c = false
  stop : ∀ c ∈ text.getLast?, isBlank c = false

instance (text : List Char) : Decidable (IsText text) :=
  decidable_of_iff (text ≠ [] ∧ OneLine text ∧ text.head?.all (!isMargin ·) = true ∧
      text.getLast?.all (!isBlank ·) = true) <| by
    simp [isText_iff, Option.all_eq_true]

variable {seen : List TokenKind}

theorem oneLine_of_isWord {word : List Char} (hword : isWord word = true) : OneLine word := by
  have hcontinues : ∀ c ∈ word, continuesName c = true := by
    cases word with
    | nil => exact List.forall_mem_nil _
    | cons c rest =>
      obtain ⟨hstart, hrest⟩ := Bool.and_eq_true_iff.1 hword
      refine List.forall_mem_cons.2 ⟨?_, List.all_eq_true.1 hrest⟩
      rw [continuesName, hstart, Bool.true_or]
  intro c hc
  refine ⟨?_, ?_⟩ <;>
    rintro rfl <;>
    exact absurd (hcontinues _ hc) (by decide +kernel)

theorem ends_nil : ∀ c ∈ [].head?, continuesName c = false := by
  simp

/-- A space ends a name. -/
theorem ends_space (rest : List Char) : ∀ c ∈ (' ' :: rest).head?, continuesName c = false := by
  intro c hc
  obtain rfl := Option.some.inj hc
  decide +kernel

theorem map_unplaced_place (line start position : Nat) (lexemes : List Lexeme) :
    (place line start position lexemes).map unplaced = lexemes.filterMap token? := by
  induction lexemes generalizing position with
  | nil => rfl
  | cons lexeme lexemes ih =>
    cases lexeme with
    | skipped source => exact ih _
    | token kind value source => exact congrArg (_ :: ·) (ih _)

@[simp] theorem contents_nil : contents seen [] = [] := by
  rw [contents, ofLine]
  rfl

theorem contents_of_next {c : Char} {value source rest after : List Char} {kind : TokenKind}
    (hnext : next seen c rest = followed kind value source after) :
    contents seen (c :: rest) = .plain kind (String.ofList value) :: contentsAfter seen kind after := by
  rw [contents, ofLine, hnext, contentsAfter, followed]
  split
  · simp [ofLine, token?]
  · simp [contents, token?, kind?]

/-- White space between tokens holds none. -/
theorem contents_gap {c : Char} (hgap : isGap c = true) (rest : List Char) :
    contents seen (c :: rest) = contents seen rest := by
  have hnext : next seen c rest = ([skipped [c]], rest) := by simp [next, hgap]
  rw [contents, ofLine, hnext]
  exact congrArg (contents · rest) (List.append_nil seen)

theorem contents_gaps {lead : List Char} (hlead : ∀ c ∈ lead, isGap c = true) (rest : List Char) :
    contents seen (lead ++ rest) = contents seen rest := by
  induction lead with
  | nil => rfl
  | cons c lead ih =>
    obtain ⟨hc, hlead⟩ := List.forall_mem_cons.1 hlead
    rw [List.cons_append, contents_gap hc, ih hlead]

theorem contents_blank {line : List Char} (hline : ∀ c ∈ line, isGap c = true) :
    contents seen line = [] := by
  rw [← List.append_nil line, contents_gaps hline, contents_nil]

/-- A comment holds no tokens. -/
theorem contents_comment {mark : List Char} (hmark : mark = ['#'] ∨ mark = ['/', '/'])
    (comment : List Char) : contents seen (mark ++ comment) = [] := by
  have hnext : ∃ c rest, mark ++ comment = c :: rest ∧ next seen c rest = ([skipped (c :: rest)], []) := by
    obtain rfl | rfl := hmark
    · exact ⟨_, _, rfl, rfl⟩
    · exact ⟨_, _, rfl, rfl⟩
  obtain ⟨c, rest, hline, hnext⟩ := hnext
  rw [hline, contents, ofLine, hnext, ofLine]
  rfl

theorem ofLine_of_contents {source : List Char} (hcontents : contents [] source = [])
    (line start : Nat) : Token.ofLine line start source = [] := by
  rw [← List.map_eq_nil_iff, Token.ofLine, map_unplaced_place]
  exact hcontents

theorem mem_of_covers {intervals : List (Nat × Nat)} {n : Nat} (hcovers : covers intervals n = true) :
    ∃ bounds ∈ intervals, bounds.1 ≤ n ∧ n ≤ bounds.2 := by
  induction intervals with
  | nil => cases hcovers
  | cons bounds rest ih =>
    obtain ⟨low, high⟩ := bounds
    simp only [covers] at hcovers
    split at hcovers
    · cases hcovers
    · next hlow =>
      obtain hhigh | hlater := Bool.or_eq_true_iff.1 hcovers
      · exact ⟨(low, high), List.mem_cons_self, Nat.le_of_not_lt hlow, of_decide_eq_true hhigh⟩
      · obtain ⟨other, hother, hbetween⟩ := ih hlater
        exact ⟨other, List.mem_cons_of_mem _ hother, hbetween⟩

/-- White space lies outside a set of code points if none of its intervals meets the set. -/
theorem covers_of_isBlank {intervals : List (Nat × Nat)}
    (hall : ∀ bounds ∈ blankIntervals, ∀ n ∈ List.range' bounds.1 (bounds.2 + 1 - bounds.1),
      covers intervals n = false)
    {c : Char} (hblank : isBlank c = true) : covers intervals c.toNat = false := by
  obtain ⟨bounds, hbounds, hlow, hhigh⟩ := mem_of_covers hblank
  apply hall bounds hbounds
  rw [List.mem_range'_1]
  omega

theorem isAlphanumeric_of_isBlank {c : Char} (hblank : isBlank c = true) : isAlphanumeric c = false := by
  have hall : ∀ bounds ∈ blankIntervals, ∀ n ∈ List.range' bounds.1 (bounds.2 + 1 - bounds.1),
      covers alphanumericIntervals n = false := by
    decide +kernel
  exact covers_of_isBlank hall hblank

/-- White space between tokens starts no name. -/
theorem startsName_of_isGap {c : Char} (hgap : isGap c = true) : startsName c = false := by
  rw [isGap, Bool.or_eq_true, decide_eq_true_eq] at hgap
  obtain hblank | rfl := hgap
  · have hunderscore : c ≠ '_' := by
      rintro rfl
      exact absurd hblank (by decide)
    have hdot : c ≠ '.' := by
      rintro rfl
      exact absurd hblank (by decide)
    simp [startsName, isAlphanumeric_of_isBlank hblank, hunderscore, hdot]
  · decide +kernel

/-- What a run of characters of a class is and what follows it. -/
theorem span_append {p : Char → Bool} {run rest : List Char} (hrun : ∀ c ∈ run, p c = true)
    (hrest : ∀ c ∈ rest.head?, p c = false) :
    (run ++ rest).takeWhile p = run ∧ (run ++ rest).dropWhile p = rest := by
  rw [List.takeWhile_append_of_pos hrun, List.dropWhile_append_of_pos hrun]
  cases rest with
  | nil => simp
  | cons c rest =>
    have hstop : p c = false := hrest c rfl
    simp [hstop]

theorem contents_word {word rest : List Char} (hword : isWord word = true)
    (hrest : ∀ c ∈ rest.head?, continuesName c = false) :
    contents seen (word ++ rest) = .plain (wordKind seen word) (String.ofList word) ::
      contentsAfter seen (wordKind seen word) rest := by
  cases word with
  | nil => cases hword
  | cons c body =>
    obtain ⟨hstart, hbody⟩ := Bool.and_eq_true_iff.1 hword
    obtain ⟨htake, hdrop⟩ := span_append (List.all_eq_true.1 hbody) hrest
    have hother : c ≠ '#' ∧ c ≠ '/' ∧ c ≠ ':' ∧ c ≠ '-' ∧ c ≠ '"' := by
      refine ⟨?_, ?_, ?_, ?_, ?_⟩ <;>
        rintro rfl <;>
        exact absurd hstart (by decide +kernel)
    have hgap : isGap c = false := by
      rw [Bool.eq_false_iff]
      intro hgap
      rw [startsName_of_isGap hgap] at hstart
      cases hstart
    have hnext : next seen c (body ++ rest) =
        followed (wordKind seen (c :: body)) (c :: body) (c :: body) rest := by
      simp [next, hgap, startsComment, hother, hstart, htake, hdrop]
    exact contents_of_next hnext

theorem contents_quoted {name : List Char} (hname : '"' ∉ name) (rest : List Char) :
    contents seen ('"' :: name ++ '"' :: rest) =
      .plain .name (String.ofList name) :: contents (seen ++ [.name]) rest := by
  have hinside : ∀ c ∈ name, decide (c ≠ '"') = true := by
    intro c hc
    rw [decide_eq_true_eq]
    rintro rfl
    exact hname hc
  have hquote : ∀ c ∈ ('"' :: rest).head?, decide (c ≠ '"') = false := by simp
  obtain ⟨htake, hdrop⟩ := span_append hinside hquote
  have hgap : isGap '"' = false := by decide
  have hnext : next seen '"' (name ++ '"' :: rest) =
      followed .name name ('"' :: name ++ ['"']) rest := by
    simp only [next, hgap, startsComment, Char.reduceEq, decide_false, Bool.false_and, Bool.or_self,
      Bool.false_eq_true, if_false, if_true, htake, hdrop]
  exact contents_of_next hnext

theorem contents_arrow {arrow : List Char} (harrow : arrow ∈ arrows) (rest : List Char) :
    contents seen (arrow ++ ' ' :: rest) =
      .plain .arrow (String.ofList arrow) :: contents (seen ++ [.arrow]) rest := by
  have hgap : isGap '-' = false := by decide
  have hsplit : ∃ body, arrow = '-' :: body ∧ splitArrow (body ++ ' ' :: rest) = (arrow, ' ' :: rest) := by
    simp only [arrows, List.mem_cons, List.not_mem_nil, or_false] at harrow
    obtain rfl | rfl | rfl | rfl := harrow <;> exact ⟨_, rfl, rfl⟩
  obtain ⟨body, hbody, hsplit⟩ := hsplit
  have hnext : next seen '-' (body ++ ' ' :: rest) = followed .arrow arrow arrow (' ' :: rest) := by
    simp [next, hgap, startsComment, hsplit]
  have hcontents := contents_of_next hnext
  rw [← List.cons_append, ← hbody] at hcontents
  exact hcontents.trans (congrArg (_ :: ·) (contents_gap (by decide) rest))

theorem freeText_text {text : List Char} (htext : IsText text) :
    (freeText (' ' :: text)).filterMap token? = [.plain .text (String.ofList text)] := by
  have hmargin : ∀ c ∈ [' '], isMargin c = true := by simp [isMargin]
  obtain ⟨htake, hdrop⟩ := span_append hmargin htext.start
  obtain ⟨-, hlast⟩ := span_append (List.forall_mem_nil (isBlank · = true))
    (List.head?_reverse (l := text) ▸ htext.stop)
  have htrim : trimEnd isBlank text = text := by
    rw [List.nil_append] at hlast
    rw [trimEnd, hlast, List.reverse_reverse]
  rw [List.singleton_append] at htake hdrop
  have htokens : freeText (' ' :: text) = [skipped [' '], token .text text text, skipped []] := by
    simp [freeText, htake, hdrop, htrim, htext.filled]
  rw [htokens]
  rfl

theorem contentsAfter_nil (kind : TokenKind) : contentsAfter seen kind [] = [] := by
  rw [contentsAfter]
  split
  · rfl
  · exact contents_nil

theorem contentsAfter_space {kind : TokenKind} (hkind : takesText kind = false) (rest : List Char) :
    contentsAfter seen kind (' ' :: rest) = contents (seen ++ [kind]) rest := by
  rw [contentsAfter, hkind, if_neg (by decide), contents_gap (by decide)]

theorem contentsAfter_text {kind : TokenKind} (hkind : takesText kind = true) {text : List Char}
    (htext : IsText text) :
    contentsAfter seen kind (' ' :: text) = [.plain .text (String.ofList text)] := by
  rw [contentsAfter, if_pos hkind, freeText_text htext]

theorem contents_colon {text : List Char} (htext : IsText text) :
    contents seen (':' :: ' ' :: text) =
      [.plain .colon ":", .plain .text (String.ofList text)] := by
  have hnext : next seen ':' (' ' :: text) = followed .colon [':'] [':'] (' ' :: text) := rfl
  rw [contents_of_next hnext, contentsAfter_text rfl htext]

end Lexeme

end SequenceChart
