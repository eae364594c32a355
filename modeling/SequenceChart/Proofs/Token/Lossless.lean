import SequenceChart.Proofs.Token.Kinds

namespace SequenceChart.Token

open Lexeme

/-- The characters of a text that a token covers. -/
def slice (text : List Char) (token : Token) : List Char :=
  (text.drop token.offset.toNat).take token.length.toNat

/-- Whether the character at an offset belongs to a token. -/
def Covers (token : Token) (offset : Nat) : Prop :=
  token.offset ≤ offset ∧ offset < token.offset + token.length

/-- How the characters that a token covers spell its value. A name may stand between quote marks,
    and a line break has the same value whichever way it is written. -/
def Spells (token : Token) (covered after : List Char) : Prop :=
  match token.kind with
  | .lineBreak =>
    token.value = "\n" ∧ (covered = ['\n'] ∨ covered = ['\r'] ∧ after.head? ≠ some '\n')
  | .name =>
    covered = if covered.head? = some '"' then '"' :: token.value.toList ++ ['"']
      else token.value.toList
  | _ => covered = token.value.toList

/-- Whether a line feed or a lone carriage return stands at an offset. -/
def BreaksAt (text : List Char) (offset : Nat) : Prop :=
  text[offset]? = some '\n' ∨ text[offset]? = some '\r' ∧ text[offset + 1]? ≠ some '\n'

/-- A comment runs from its mark up to the next line break, or to the end of the text. -/
structure Comment (text : List Char) (start stop : Nat) : Prop where
  marked : ['#'] <+: text.drop start ∨ ['/', '/'] <+: text.drop start
  unbroken : ∀ offset, start ≤ offset → offset < stop → ¬ BreaksAt text offset
  ended : stop = text.length ∨ BreaksAt text stop

/-- Whether the character at an offset belongs to one of several tokens. -/
def CoveredBy (tokens : List Token) (offset : Nat) : Prop :=
  ∃ token ∈ tokens, token.Covers offset

/-- What may stand outside of all tokens: white space, a byte order mark, or a comment, all of
    which lies outside of them. -/
def Skipped (text : List Char) (covered : Nat → Prop) (offset : Nat) : Prop :=
  (∃ c, text[offset]? = some c ∧ (Text.isBlank c = true ∨ c = '\uFEFF')) ∨
    ∃ start stop, Comment text start stop ∧ start ≤ offset ∧ offset < stop ∧
      ∀ other, start ≤ other → other < stop → ¬ covered other

/-- Nothing of a text is lost in its tokens: they cover stretches of the text one after the other,
    each of which spells its token, and what lies between them is white space or comments. -/
structure Lossless (text : List Char) (tokens : List Token) : Prop where
  ended : ∃ (body : List Token) (stop : Token), tokens = body ++ [stop] ∧ stop.kind = .endOfInput ∧
    stop.offset = text.length ∧ stop.length = 0 ∧
    ∀ token ∈ body, token.kind ≠ .endOfInput ∧ 1 ≤ token.length
  inside : ∀ token ∈ tokens, 0 ≤ token.offset ∧ token.offset + token.length ≤ text.length
  ordered : tokens.Pairwise fun a b => a.offset < b.offset ∧ a.offset + a.length ≤ b.offset
  spelled : ∀ token ∈ tokens,
    token.Spells (token.slice text) (text.drop (token.offset + token.length).toNat)
  skipped : ∀ offset < text.length, ¬ CoveredBy tokens offset →
    Skipped text (CoveredBy tokens) offset

theorem breaksAt_append (front back : List Char) (offset : Nat) :
    BreaksAt (front ++ back) (front.length + offset) ↔ BreaksAt back offset := by
  simp only [BreaksAt, Nat.add_assoc, List.getElem?_append_right (Nat.le_add_right ..),
    Nat.add_sub_cancel_left]

theorem breaksAt_zero (c : Char) (rest : List Char) :
    BreaksAt (c :: rest) 0 ↔ breaksLine c rest = true := by
  cases rest <;> simp [BreaksAt, breaksLine]

theorem Unbroken.not_breaksAt {source rest : List Char} (hunbroken : Unbroken source rest)
    {offset : Nat} (hoffset : offset < source.length) : ¬ BreaksAt (source ++ rest) offset := by
  induction source generalizing offset with
  | nil => simp at hoffset
  | cons c source ih =>
    obtain ⟨hfirst, hunbroken⟩ := hunbroken
    cases offset with
    | zero =>
      rw [List.cons_append, breaksAt_zero, hfirst]
      simp
    | succ offset =>
      have hshift := breaksAt_append [c] (source ++ rest) offset
      rw [List.length_singleton, Nat.add_comm] at hshift
      rw [List.cons_append, ← List.singleton_append, hshift]
      exact ih hunbroken (by simpa using hoffset)

theorem AtLineEnd.breaksAt {rest : List Char} (hend : AtLineEnd rest) (source : List Char) :
    source.length = (source ++ rest).length ∨ BreaksAt (source ++ rest) source.length := by
  cases rest with
  | nil => exact .inl (by simp)
  | cons c rest =>
    refine .inr ?_
    have hshift := breaksAt_append source (c :: rest) 0
    rw [Nat.add_zero] at hshift
    exact hshift.2 ((breaksAt_zero c rest).2 (hend c rest rfl))

theorem Comment.append {back : List Char} {start stop : Nat} (hcomment : Comment back start stop)
    (front : List Char) : Comment (front ++ back) (front.length + start) (front.length + stop) where
  marked := by
    rw [List.drop_append, List.drop_eq_nil_of_le (Nat.le_add_right ..), List.nil_append,
      Nat.add_sub_cancel_left]
    exact hcomment.marked
  unbroken offset hstart hstop := by
    obtain ⟨inner, rfl⟩ := Nat.exists_eq_add_of_le (Nat.le_trans (Nat.le_add_right ..) hstart)
    rw [breaksAt_append]
    exact hcomment.unbroken inner (by omega) (by omega)
  ended := by
    rw [breaksAt_append, List.length_append]
    exact hcomment.ended.imp (by omega) id

theorem Skipped.append (front : List Char) {back : List Char} {covered : Nat → Prop} {offset : Nat}
    (hskipped : Skipped back (fun other => covered (front.length + other)) offset) :
    Skipped (front ++ back) covered (front.length + offset) := by
  obtain ⟨c, hget, hc⟩ | ⟨start, stop, hcomment, hstart, hstop, hfree⟩ := hskipped
  · refine .inl ⟨c, ?_, hc⟩
    rw [List.getElem?_append_right (Nat.le_add_right ..), Nat.add_sub_cancel_left, hget]
  · refine .inr ⟨_, _, hcomment.append front, by omega, by omega, ?_⟩
    intro other hother hbefore
    obtain ⟨inner, rfl⟩ := Nat.exists_eq_add_of_le (Nat.le_trans (Nat.le_add_right ..) hother)
    exact hfree inner (by omega) (by omega)

/-- Tokens that end before an offset do not matter to what covers it. -/
theorem coveredBy_append (front : List Token) {back : List Token} {offset : Nat}
    (hfront : ∀ token ∈ front, token.offset + token.length ≤ offset) :
    CoveredBy (front ++ back) offset ↔ CoveredBy back offset := by
  constructor
  · rintro ⟨token, htoken, hcovers⟩
    obtain htoken | htoken := List.mem_append.1 htoken
    · have hle := hfront token htoken
      have hlt := hcovers.2
      omega
    · exact ⟨token, htoken, hcovers⟩
  · rintro ⟨token, htoken, hcovers⟩
    exact ⟨token, List.mem_append_right _ htoken, hcovers⟩

theorem Comment.of_startsComment {c : Char} {body rest : List Char}
    (hstart : startsComment c body = true) (hend : AtLineEnd rest)
    (hunbroken : Unbroken (c :: body) rest) :
    Comment (c :: body ++ rest) 0 (c :: body).length where
  marked := by
    simp only [startsComment, Bool.or_eq_true, Bool.and_eq_true, decide_eq_true_eq] at hstart
    obtain rfl | ⟨rfl, hhead⟩ := hstart
    · exact .inl ⟨body ++ rest, rfl⟩
    · obtain ⟨tail, rfl⟩ := List.head?_eq_some_iff.1 hhead
      exact .inr ⟨tail ++ rest, rfl⟩
  unbroken _ _ hstop := hunbroken.not_breaksAt hstop
  ended := hend.breaksAt _

/-- A token that may be read covers a character at least, spells its value, and is not the end. -/
theorem spells_of_reads {seen : List TokenKind} {kind : TokenKind} {value source rest : List Char}
    (hreads : Reads seen (.token kind value source) rest) (place : Place) :
    source ≠ [] ∧ kind ≠ .endOfInput ∧
      (place.token kind (String.ofList value) source.length).Spells source rest := by
  cases hreads with
  | colon => simp [Spells, Place.token]
  | arrow harrow =>
    have hne : value ≠ [] := by
      rintro rfl
      simp [arrows] at harrow
    simp [Spells, Place.token, hne]
  | quoted hname => simp [Spells, Place.token]
  | unterminated hbody hend => simp [Spells, Place.token]
  | @word c body _ hstart hbody hend =>
    have hquote : c ≠ '"' := by
      rintro rfl
      exact absurd hstart (by decide +kernel)
    obtain hkind | ⟨keyword, hkind⟩ := wordKind_cases seen (c :: body)
    · simp [hkind, Spells, Place.token, hquote]
    · simp [hkind, Spells, Place.token]
  | invalid hne hrun hend => simp [Spells, Place.token, hne]
  | text hne => simp [Spells, Place.token, hne]

/-- Each token covers a stretch of the text that spells it, and none but the last one is empty or
    the end. -/
theorem Scanned.stretch {place : Place} {seen : List TokenKind} {text : List Char}
    {tokens : List Token} (hscanned : Scanned place seen text tokens) :
    ∀ token ∈ tokens, ∃ front covered after, text = front ++ (covered ++ after) ∧
      token.offset = place.offset + front.length ∧ token.length = covered.length ∧
      token.Spells covered after := by
  induction hscanned with
  | stop =>
    intro token htoken
    rw [List.mem_singleton.1 htoken]
    exact ⟨[], [], [], rfl, by simp [Place.token], rfl, by simp [Spells, Place.token]⟩
  | @lineBreak place seen c rest tokens hbreak tail ih =>
    intro token htoken
    obtain rfl | htoken := List.mem_cons.1 htoken
    · refine ⟨[], [c], rest, rfl, by simp [Place.token], rfl, ?_⟩
      simp only [breaksLine, Bool.or_eq_true, Bool.and_eq_true, decide_eq_true_eq] at hbreak
      obtain rfl | ⟨rfl, hlone⟩ := hbreak
      · simp [Spells, Place.token]
      · simpa [Spells, Place.token] using hlone
    · obtain ⟨front, covered, after, rfl, hoffset, hlength, hspells⟩ := ih token htoken
      refine ⟨c :: front, covered, after, rfl, ?_, hlength, hspells⟩
      simp only [Place.nextLine] at hoffset
      simp only [List.length_cons]
      omega
  | @lexeme place seen lexeme rest tokens hreads hunbroken tail ih =>
    intro token htoken
    obtain htoken | htoken := List.mem_append.1 htoken
    · obtain ⟨kind, value, source, rfl, rfl⟩ := exists_of_mem_tokensAt htoken
      exact ⟨[], source, rest, rfl, by simp [Place.token], rfl, (spells_of_reads hreads place).2.2⟩
    · obtain ⟨front, covered, after, rfl, hoffset, hlength, hspells⟩ := ih token htoken
      refine ⟨lexeme.source ++ front, covered, after, by simp, ?_, hlength, hspells⟩
      simp only [Place.advance] at hoffset
      simp only [List.length_append]
      omega

theorem Scanned.offset_le {place : Place} {seen : List TokenKind} {text : List Char}
    {tokens : List Token} (hscanned : Scanned place seen text tokens) :
    ∀ token ∈ tokens, (place.offset : Int) ≤ token.offset := by
  intro token htoken
  obtain ⟨front, _, _, _, hoffset, _⟩ := hscanned.stretch token htoken
  omega

/-- The tokens of scanned text follow one another, and a token before others is not empty. -/
theorem Scanned.ordered {place : Place} {seen : List TokenKind} {text : List Char}
    {tokens : List Token} (hscanned : Scanned place seen text tokens) :
    tokens.Pairwise fun a b => a.offset < b.offset ∧ a.offset + a.length ≤ b.offset := by
  induction hscanned with
  | stop => exact List.pairwise_singleton ..
  | @lineBreak place seen c rest tokens hbreak tail ih =>
    refine List.pairwise_cons.2 ⟨fun later hlater => ?_, ih⟩
    have hle := tail.offset_le later hlater
    simp only [Place.nextLine, Place.token] at hle ⊢
    omega
  | @lexeme place seen lexeme rest tokens hreads hunbroken tail ih =>
    cases lexeme with
    | skipped source => exact ih
    | token kind value source =>
      refine List.pairwise_cons.2 ⟨fun later hlater => ?_, ih⟩
      have hpositive := List.length_pos_iff.2 (spells_of_reads hreads place).1
      have hle := tail.offset_le later hlater
      simp only [Place.advance, Lexeme.source, Place.token] at hle ⊢
      omega

/-- The end of the input comes last, behind all of the text, and nowhere else. -/
theorem Scanned.ended {place : Place} {seen : List TokenKind} {text : List Char}
    {tokens : List Token} (hscanned : Scanned place seen text tokens) :
    ∃ (body : List Token) (stop : Token), tokens = body ++ [stop] ∧ stop.kind = .endOfInput ∧
      stop.offset = place.offset + text.length ∧ stop.length = 0 ∧
      ∀ token ∈ body, token.kind ≠ .endOfInput ∧ 1 ≤ token.length := by
  induction hscanned with
  | stop => exact ⟨[], _, rfl, rfl, by simp [Place.token], rfl, by simp⟩
  | @lineBreak place seen c rest tokens hbreak tail ih =>
    obtain ⟨body, stop, rfl, hkind, hoffset, hlength, hbody⟩ := ih
    refine ⟨_ :: body, stop, rfl, hkind, ?_, hlength, ?_⟩
    · simp only [Place.nextLine] at hoffset
      simp only [List.length_cons]
      omega
    · exact List.forall_mem_cons.2 ⟨⟨by simp [Place.token], by simp [Place.token]⟩, hbody⟩
  | @lexeme place seen lexeme rest tokens hreads hunbroken tail ih =>
    obtain ⟨body, stop, rfl, hkind, hoffset, hlength, hbody⟩ := ih
    refine ⟨lexeme.tokensAt place ++ body, stop, by simp, hkind, ?_, hlength, ?_⟩
    · simp only [Place.advance] at hoffset
      simp only [List.length_append]
      omega
    · intro token htoken
      obtain htoken | htoken := List.mem_append.1 htoken
      · obtain ⟨kind, value, source, rfl, rfl⟩ := exists_of_mem_tokensAt htoken
        obtain ⟨hne, hstop, _⟩ := spells_of_reads hreads place
        have hpositive := List.length_pos_iff.2 hne
        refine ⟨hstop, ?_⟩
        simp only [Place.token]
        omega
      · exact hbody token htoken

/-- What no token of scanned text covers is skipped. -/
theorem Scanned.skipped {place : Place} {seen : List TokenKind} {text : List Char}
    {tokens : List Token} (hscanned : Scanned place seen text tokens) (offset : Nat)
    (hoffset : offset < text.length) (huncovered : ¬ CoveredBy tokens (place.offset + offset)) :
    Skipped text (fun other => CoveredBy tokens (place.offset + other)) offset := by
  induction hscanned generalizing offset with
  | stop => simp at hoffset
  | @lineBreak place seen c rest tokens hbreak tail ih =>
    have hcovered (inner : Nat) : CoveredBy (place.token .lineBreak "\n" 1 :: tokens)
        (place.offset + (inner + 1)) ↔ CoveredBy tokens (place.nextLine.offset + inner) := by
      have hshift : place.offset + (inner + 1) = place.nextLine.offset + inner := by
        simp only [Place.nextLine]
        omega
      rw [hshift]
      refine coveredBy_append [_] fun token htoken => ?_
      rw [List.mem_singleton.1 htoken]
      simp only [Place.token, Place.nextLine]
      omega
    cases offset with
    | zero =>
      refine absurd ⟨_, List.mem_cons_self, ?_⟩ huncovered
      simp only [Covers, Place.token]
      omega
    | succ offset =>
      rw [hcovered] at huncovered
      have hskipped := ih offset (by simpa using hoffset) huncovered
      rw [Nat.add_comm]
      refine Skipped.append [c] ?_
      simpa only [List.length_singleton, Nat.add_comm 1, hcovered] using hskipped
  | @lexeme place seen lexeme rest tokens hreads hunbroken tail ih =>
    by_cases hlt : offset < lexeme.source.length
    · cases hreads with
      | @gap source _ hgap =>
        have hinside : offset < source.length := hlt
        refine .inl ⟨source[offset], ?_, ?_⟩
        · rw [List.getElem?_append_left hlt]
          exact List.getElem?_eq_getElem hlt
        · simpa [isGap] using hgap source[offset] (List.getElem_mem hinside)
      | @comment c body _ hstart hend =>
        refine .inr ⟨0, (c :: body).length, .of_startsComment hstart hend hunbroken,
          Nat.zero_le _, hlt, ?_⟩
        rintro other _ hother ⟨token, htoken, hcovers⟩
        have hle := tail.offset_le token htoken
        simp only [Place.advance, Lexeme.source] at hle
        simp only [Covers] at hcovers
        omega
      | _ =>
        refine absurd ⟨_, List.mem_append_left _ (List.mem_singleton.2 rfl), ?_⟩ huncovered
        simp only [Lexeme.source] at hlt
        simp only [Covers, Place.token]
        omega
    · obtain ⟨inner, rfl⟩ := Nat.exists_eq_add_of_le (Nat.le_of_not_lt hlt)
      have hcovered (other : Nat) :
          CoveredBy (lexeme.tokensAt place ++ tokens) (place.offset + (lexeme.source.length + other)) ↔
            CoveredBy tokens ((place.advance lexeme.source.length).offset + other) := by
        rw [← Nat.add_assoc]
        refine coveredBy_append _ fun token htoken => ?_
        cases lexeme with
        | skipped source => cases htoken
        | token kind value source =>
          rw [List.mem_singleton.1 htoken]
          simp only [Place.token, Lexeme.source]
          omega
      rw [hcovered] at huncovered
      refine Skipped.append lexeme.source ?_
      simpa only [hcovered] using ih inner (by simpa using hoffset) huncovered

/-- Reading tokens is lossless, whatever the text. -/
theorem ofText_lossless (text : String) : Lossless text.toList (ofText text) := by
  have hscanned := ofText_scanned text
  refine ⟨?_, ?_, hscanned.ordered, ?_, ?_⟩
  · simpa [Place.origin] using hscanned.ended
  · intro token htoken
    obtain ⟨front, covered, after, htext, hoffset, hlength, _⟩ := hscanned.stretch token htoken
    rw [htext]
    simp only [List.length_append, Place.origin] at hoffset ⊢
    omega
  · intro token htoken
    obtain ⟨front, covered, after, htext, hoffset, hlength, hspells⟩ :=
      hscanned.stretch token htoken
    have hstart : token.offset.toNat = front.length := by
      simp only [Place.origin] at hoffset
      omega
    have hstop : (token.offset + token.length).toNat = (front ++ covered).length := by
      simp only [Place.origin] at hoffset
      simp only [List.length_append]
      omega
    have hcount : token.length.toNat = covered.length := by omega
    rw [slice, hstart, hcount, hstop, htext, List.drop_left, List.take_left, ← List.append_assoc,
      List.drop_left]
    exact hspells
  · intro offset hoffset huncovered
    simpa [Place.origin] using
      hscanned.skipped offset hoffset (by simpa [Place.origin] using huncovered)

end SequenceChart.Token
