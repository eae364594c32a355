import SequenceChart.Proofs.Text.Trimmed
import SequenceChart.Proofs.Token.Lines
import SequenceChart.Token.Scanner

namespace SequenceChart.Lexeme

open Text Token

/-- What a lexeme may be, given the kinds of the tokens before it on its line and the characters
    after it. The characters are those of the whole text, so that what ends a lexeme may lie
    beyond the end of its line. -/
inductive Reads (seen : List TokenKind) : Lexeme → List Char → Prop where
  | gap {source rest : List Char} (hgap : ∀ c ∈ source, isGap c = true) :
      Reads seen (.skipped source) rest
  | comment {c : Char} {body rest : List Char} (hstart : startsComment c body = true)
      (hend : AtLineEnd rest) : Reads seen (.skipped (c :: body)) rest
  | colon {rest : List Char} : Reads seen (.token .colon [':'] [':']) rest
  | arrow {source rest : List Char} (harrow : source ∈ arrows)
      (hlongest : ∀ other ∈ arrows, other <+: source ++ rest → other.length ≤ source.length) :
      Reads seen (.token .arrow source source) rest
  | quoted {name rest : List Char} (hname : '"' ∉ name) :
      Reads seen (.token .name name ('"' :: name ++ ['"'])) rest
  | unterminated {body rest : List Char} (hbody : '"' ∉ body) (hend : AtLineEnd rest) :
      Reads seen (.token .invalid ('"' :: body) ('"' :: body)) rest
  | word {c : Char} {body rest : List Char} (hstart : startsName c = true)
      (hbody : ∀ d ∈ body, continuesName d = true)
      (hend : ∀ d ∈ rest.head?, continuesName d = false) :
      Reads seen (.token (wordKind seen (c :: body)) (c :: body) (c :: body)) rest
  | invalid {run rest : List Char} (hne : run ≠ [])
      (hrun : ∀ front c back, run = front ++ c :: back → endsInvalid c (back ++ rest) = false)
      (hend : ∀ c tail, rest = c :: tail → endsInvalid c tail = true) :
      Reads seen (.token .invalid run run) rest
  | text {value rest : List Char} (hne : value ≠ []) : Reads seen (.token .text value value) rest

/-- Every lexeme of a list is one that may be read where it stands. -/
def AllRead : List TokenKind → List Lexeme → List Char → Prop
  | _, [], _ => True
  | seen, lexeme :: lexemes, rest =>
    Reads seen lexeme (lexemes.flatMap source ++ rest) ∧
      AllRead (seen ++ lexeme.kind?.toList) lexemes rest

theorem allRead_append (seen : List TokenKind) (front back : List Lexeme) (rest : List Char) :
    AllRead seen (front ++ back) rest ↔
      AllRead seen front (back.flatMap source ++ rest) ∧
        AllRead (seen ++ front.filterMap kind?) back rest := by
  induction front generalizing seen with
  | nil => simp [AllRead]
  | cons lexeme front ih =>
    have hkinds : seen ++ (lexeme :: front).filterMap kind? =
        (seen ++ lexeme.kind?.toList) ++ front.filterMap kind? := by
      cases hkind : lexeme.kind? <;> simp [hkind]
    simp [AllRead, ih, hkinds, and_assoc]

/-- A character that ends a line is white space, and so ends a name, an arrow and a run of
    characters without meaning. -/
theorem isBlank_of_breaksLine {c : Char} {rest : List Char} (hbreak : breaksLine c rest = true) :
    isBlank c = true := by
  obtain rfl | rfl := eq_of_breaksLine hbreak <;> decide

theorem isBlank_of_isMargin {c : Char} (hmargin : isMargin c = true) : isBlank c = true := by
  simp only [isMargin, Bool.or_eq_true, decide_eq_true_eq] at hmargin
  obtain rfl | rfl := hmargin <;> decide

theorem isGap_of_isBlank {c : Char} (hblank : isBlank c = true) : isGap c = true := by
  simp [isGap, hblank]

theorem head?_append_atLineEnd {rest after : List Char} {c : Char} (hafter : AtLineEnd after)
    (hhead : (rest ++ after).head? = some c) :
    rest.head? = some c ∨ rest = [] ∧ (c = '\n' ∨ c = '\r') := by
  cases rest with
  | cons d rest => exact .inl hhead
  | nil =>
    cases after with
    | nil => cases hhead
    | cons d tail =>
      have hd : d = c := by simpa using hhead
      subst hd
      exact .inr ⟨rfl, eq_of_breaksLine (hafter d tail rfl)⟩

/-- A line end after a text starts no comment at its last character. -/
theorem startsComment_append {c : Char} {rest after : List Char} (hafter : AtLineEnd after) :
    startsComment c (rest ++ after) = startsComment c rest := by
  have hslash : (rest ++ after).head? = some '/' ↔ rest.head? = some '/' := by
    constructor
    · intro hhead
      obtain hhead | ⟨_, hc | hc⟩ := head?_append_atLineEnd hafter hhead
      · exact hhead
      · cases hc
      · cases hc
    · intro hhead
      cases rest with
      | nil => cases hhead
      | cons d rest => exact hhead
  simp only [startsComment, hslash]

theorem endsInvalid_append {c : Char} {rest after : List Char} (hafter : AtLineEnd after) :
    endsInvalid c (rest ++ after) = endsInvalid c rest := by
  simp only [endsInvalid, startsComment_append hafter]

theorem freeText_allRead (seen : List TokenKind) (rest after : List Char) :
    AllRead seen (freeText rest) after := by
  have hmargin : ∀ c ∈ rest.takeWhile isMargin, isGap c = true := fun c hc =>
    isGap_of_isBlank (isBlank_of_isMargin (List.all_eq_true.1 List.all_takeWhile c hc))
  have hdropped : ∀ c ∈ (rest.dropWhile isMargin).drop
      (trimEnd isBlank (rest.dropWhile isMargin)).length, isGap c = true := by
    intro c hc
    have hall := trimEnd_append_drop isBlank (rest.dropWhile isMargin)
    generalize hbody : rest.dropWhile isMargin = body at hc hall
    rw [trimEnd_eq_rdropWhile] at hc hall
    have hsplit := List.rdropWhile_append_rtakeWhile (p := isBlank) (l := body)
    rw [List.append_cancel_left (hall.trans hsplit.symm)] at hc
    exact isGap_of_isBlank (List.mem_rtakeWhile_imp hc)
  simp only [freeText]
  split
  · exact ⟨.gap hmargin, .gap hdropped, trivial⟩
  · next hempty =>
    exact ⟨.gap hmargin, .text (by simpa using hempty), .gap hdropped, trivial⟩

theorem followed_allRead {seen : List TokenKind} {kind : TokenKind} {value covered rest : List Char}
    (after : List Char) (hreads : Reads seen (.token kind value covered) (rest ++ after)) :
    AllRead seen (followed kind value covered rest).1 ((followed kind value covered rest).2 ++ after) := by
  unfold followed
  split
  · refine ⟨?_, freeText_allRead ..⟩
    simpa [freeText_source] using hreads
  · exact ⟨hreads, trivial⟩

/-- The arrow that is split off is one of the four, and the longest one that the text starts with. -/
theorem splitArrow_longest (rest : List Char) :
    (splitArrow rest).1 ∈ arrows ∧
      ∀ other ∈ arrows, other <+: '-' :: rest → other.length ≤ (splitArrow rest).1.length := by
  unfold splitArrow
  split
  · simp [arrows]
  · next tail hlonger =>
    have hhead : tail.head? ≠ some '>' := by
      cases tail with
      | nil => simp
      | cons c tail =>
        intro hc
        obtain rfl : c = '>' := by simpa using hc
        exact hlonger tail rfl
    refine ⟨by simp [arrows], ?_⟩
    simp only [arrows, List.mem_cons, List.not_mem_nil, or_false]
    rintro other (rfl | rfl | rfl | rfl) hother
    · obtain ⟨back, hback⟩ := hother
      cases hback
      simp at hhead
    · simp
    · simp
    · simp
  · simp [arrows]
  · next hnone hdash hhead =>
    refine ⟨by simp [arrows], ?_⟩
    simp only [arrows, List.mem_cons, List.not_mem_nil, or_false]
    rintro other (rfl | rfl | rfl | rfl) ⟨back, hback⟩
    · cases hback
      exact absurd rfl (hnone _)
    · cases hback
      exact absurd rfl (hhead _)
    · cases hback
      exact absurd rfl (hdash _)
    · simp

/-- Every character of a run without meaning goes on with it, and the character after it ends it. -/
theorem splitInvalid_spec (cs : List Char) :
    (∀ front c back, (splitInvalid cs).1 = front ++ c :: back →
        endsInvalid c (back ++ (splitInvalid cs).2) = false) ∧
      ∀ c tail, (splitInvalid cs).2 = c :: tail → endsInvalid c tail = true := by
  induction cs with
  | nil => simp [splitInvalid]
  | cons d rest ih =>
    have happend := splitInvalid_append rest
    simp only [splitInvalid]
    cases hends : endsInvalid d rest with
    | true => simpa using hends
    | false =>
      refine ⟨?_, by simpa using ih.2⟩
      intro front c back hfront
      cases front with
      | nil =>
        obtain ⟨rfl, rfl⟩ : d = c ∧ (splitInvalid rest).1 = back := by simpa using hfront
        simpa [happend] using hends
      | cons e front =>
        have htail : (splitInvalid rest).1 = front ++ c :: back := by
          simpa using (List.cons.inj hfront).2
        simpa using ih.1 front c back htail

/-- The end of a line behind the text makes no arrow longer. -/
theorem splitArrow_longest_append (rest after : List Char) (hafter : AtLineEnd after) :
    ∀ other ∈ arrows, other <+: (splitArrow rest).1 ++ ((splitArrow rest).2 ++ after) →
      other.length ≤ (splitArrow rest).1.length := by
  intro other hother hstart
  refine (splitArrow_longest rest).2 other hother ?_
  have hnoBreak : '\n' ∉ other ∧ '\r' ∉ other := by
    simp only [arrows, List.mem_cons, List.not_mem_nil, or_false] at hother
    obtain rfl | rfl | rfl | rfl := hother <;> decide
  rw [← List.append_assoc, splitArrow_append] at hstart
  obtain ⟨back, hback⟩ := hstart
  obtain ⟨more, hmore, _⟩ | ⟨beyond, rfl, hbeyond⟩ := List.append_eq_append_iff.1 hback
  · exact ⟨more, hmore.symm⟩
  · cases beyond with
    | nil => simp
    | cons c beyond =>
      obtain rfl | rfl := eq_of_breaksLine (hafter c _ hbeyond)
      · simp at hnoBreak
      · simp at hnoBreak

theorem splitArrow_reads (seen : List TokenKind) (rest after : List Char) (hafter : AtLineEnd after) :
    Reads seen (.token .arrow (splitArrow rest).1 (splitArrow rest).1) ((splitArrow rest).2 ++ after) :=
  .arrow (splitArrow_longest rest).1 (splitArrow_longest_append rest after hafter)

/-- Each of the next lexemes of a line is one that may be read where it stands. -/
theorem next_allRead (seen : List TokenKind) (c : Char) (rest after : List Char)
    (hafter : AtLineEnd after) :
    AllRead seen (next seen c rest).1 ((next seen c rest).2 ++ after) := by
  unfold next
  split
  · next hgap => exact ⟨.gap (by simpa using hgap), trivial⟩
  split
  · next hcomment => exact ⟨.comment hcomment hafter, trivial⟩
  split
  · next hcolon =>
    subst hcolon
    exact followed_allRead after .colon
  split
  · exact followed_allRead after (splitArrow_reads seen rest after hafter)
  split
  · next hquote =>
    subst hquote
    have hname : '"' ∉ rest.takeWhile (· ≠ '"') := by
      intro hmem
      simpa using List.all_eq_true.1 List.all_takeWhile _ hmem
    split
    · next hafterQuote =>
      have hwhole := List.takeWhile_append_dropWhile (p := (· ≠ '"')) (l := rest)
      rw [hafterQuote, List.append_nil] at hwhole
      exact ⟨.unterminated (hwhole ▸ hname) hafter, trivial⟩
    · next quote back hafterQuote =>
      obtain rfl : quote = '"' := by
        have hhead := List.head?_dropWhile_not (· ≠ '"') rest
        rw [hafterQuote] at hhead
        simpa using hhead
      exact followed_allRead after (.quoted hname)
  split
  · next hstart =>
    refine followed_allRead after (.word hstart (List.all_eq_true.1 List.all_takeWhile) ?_)
    intro d hd
    obtain hd | ⟨_, hd⟩ := head?_append_atLineEnd hafter hd
    · have hhead := List.head?_dropWhile_not continuesName rest
      rw [hd] at hhead
      simpa using hhead
    · obtain rfl | rfl := hd <;> decide +kernel
  · next hgap hcomment hcolon hdash hquote hstart =>
    obtain ⟨hrun, hend⟩ := splitInvalid_spec rest
    have hsplit := splitInvalid_append rest
    refine followed_allRead after (.invalid (List.cons_ne_nil _ _) ?_ ?_)
    · intro front d back hfront
      rw [← List.append_assoc, endsInvalid_append hafter]
      cases front with
      | nil =>
        obtain ⟨rfl, rfl⟩ := List.cons.inj hfront
        have hblank : isBlank c = false := by
          simp only [isGap, Bool.or_eq_true, not_or, Bool.not_eq_true] at hgap
          exact hgap.1
        simp_all [endsInvalid]
      | cons e front => exact hrun front d back (List.cons.inj hfront).2
    · intro d tail htail
      cases hback : (splitInvalid rest).2 with
      | nil =>
        rw [hback, List.nil_append] at htail
        simp [endsInvalid, isBlank_of_breaksLine (hafter d tail htail)]
      | cons e back =>
        rw [hback, List.cons_append] at htail
        obtain ⟨rfl, rfl⟩ := List.cons.inj htail
        rw [endsInvalid_append hafter]
        exact hend e back hback

/-- Every lexeme of a line is one that may be read where it stands. -/
theorem ofLine_allRead (seen : List TokenKind) (line after : List Char) (hafter : AtLineEnd after) :
    AllRead seen (ofLine seen line) after := by
  fun_induction ofLine with
  | case1 => trivial
  | case2 seen c rest ih =>
    rw [allRead_append, ofLine_source]
    exact ⟨next_allRead seen c rest after hafter, ih⟩

end SequenceChart.Lexeme
