import Mathlib.Data.List.TakeWhile
import SequenceChart.Proofs.Token.Scanner

namespace SequenceChart.Scanner

open Lexeme Token Text

section Advance

variable {scanner : Scanner} {front rest : List Char}

theorem after_of_unbroken {place : Place} {c : Char} (hc : breaksLine c rest = false) :
    place.after c rest = place.advance 1 := by
  rw [Place.after, hc]
  rfl

/-- Characters within a line are read if the condition holds at each of them and fails behind them. -/
theorem readWhile_append {goes : Place → Char → List Char → Bool} {place : Place}
    (hunbroken : Unbroken front rest)
    (hgoes : ∀ done c todo, front = done ++ c :: todo →
      goes (place.advance done.length) c (todo ++ rest) = true)
    (hstops : ∀ c tail, rest = c :: tail → goes (place.advance front.length) c tail = false) :
    readWhile goes place (front ++ rest) = (place.advance front.length, rest) := by
  induction front generalizing place with
  | nil =>
    cases rest with
    | nil => rfl
    | cons c tail =>
      have hc : goes place c tail = false := hstops c tail rfl
      rw [List.nil_append, readWhile, hc]
      rfl
  | cons d front ih =>
    obtain ⟨hd, hunbroken⟩ := hunbroken
    have hshift (length : Nat) : (place.advance 1).advance length = place.advance (length + 1) := by
      simp only [Place.advance, Nat.add_assoc, Nat.add_comm 1]
    have hfirst : goes place d (front ++ rest) = true := hgoes [] d front rfl
    rw [List.cons_append, readWhile, if_pos hfirst, after_of_unbroken hd, ih hunbroken, hshift]
    · rfl
    · intro done c todo hfront
      rw [hshift]
      exact hgoes (d :: done) c todo (congrArg (d :: ·) hfront)
    · intro c tail htail
      rw [hshift]
      exact hstops c tail htail

/-- Reading characters within a line skips them. -/
theorem advanceWhile_eq {goes : Place → Char → List Char → Bool} (hrest : scanner.rest = front ++ rest)
    (hunbroken : Unbroken front rest)
    (hgoes : ∀ done c todo, front = done ++ c :: todo →
      goes (scanner.place.advance done.length) c (todo ++ rest) = true)
    (hstops : ∀ c tail, rest = c :: tail → goes (scanner.place.advance front.length) c tail = false) :
    scanner.advanceWhile goes = scanner.follow (.skipped front) := by
  rw [advanceWhile, hrest, readWhile_append hunbroken hgoes hstops]
  simp [follow, Lexeme.source, tokensAt, hrest]

theorem since_follow (hrest : scanner.rest = front ++ rest) :
    (scanner.follow (.skipped front)).since scanner = front := by
  rw [since, follow, Place.advance, Nat.add_sub_cancel_left, hrest, Lexeme.source, List.take_left]

theorem follow_append (front back : List Char) :
    (scanner.follow (.skipped front)).follow (.skipped back) =
      scanner.follow (.skipped (front ++ back)) := by
  simp [follow, Lexeme.source, tokensAt, Place.advance, Nat.add_assoc]

/-- Emitting a token behind its characters follows its lexeme. -/
theorem emit_follow {kind : TokenKind} (hkind : kind ≠ .lineBreak) (value covered : List Char) :
    (scanner.follow (.skipped covered)).emit kind value scanner.place covered.length =
      scanner.follow (.token kind value covered) := by
  simp [emit, follow, Lexeme.source, tokensAt, hkind]

/-- Characters may be skipped before or after a token is emitted. -/
theorem emit_follow_skipped (kind : TokenKind) (value : List Char) (place : Place) (length : Nat)
    (skipped : List Char) :
    (scanner.follow (.skipped skipped)).emit kind value place length =
      (scanner.emit kind value place length).follow (.skipped skipped) := by
  simp [emit, follow, tokensAt]

theorem emitSince_follow {kind : TokenKind} (hkind : kind ≠ .lineBreak)
    (hrest : scanner.rest = front ++ rest) :
    (scanner.follow (.skipped front)).emitSince kind scanner =
      scanner.follow (.token kind front front) := by
  have hlength : (scanner.follow (.skipped front)).place.offset - scanner.place.offset =
      front.length := Nat.add_sub_cancel_left _ _
  rw [emitSince, since_follow hrest, hlength, emit_follow hkind]

theorem advance_eq {c : Char} (hrest : scanner.rest = c :: rest) (hc : breaksLine c rest = false) :
    scanner.advance = scanner.follow (.skipped [c]) := by
  simp [advance, hrest, after_of_unbroken hc, follow, Lexeme.source, tokensAt]

end Advance

section Line

variable {scanner : Scanner} {line after : List Char}

theorem Faces.not_breaks {done todo : List Char} {c : Char}
    (hfaces : scanner.Faces (done ++ c :: todo) after) : breaksLine c (todo ++ after) = false :=
  ((unbroken_append _ _ _).1 hfaces.unbroken).2.1

/-- The characters of a class are skipped, up to the first other one or the end of the line. -/
theorem advanceWhile_takeWhile {goes : Place → Char → List Char → Bool} {skips : Char → Bool}
    (hfaces : scanner.Faces line after)
    (hinside : ∀ place c rest, breaksLine c rest = false → goes place c rest = skips c)
    (hend : ∀ place c rest, breaksLine c rest = true → goes place c rest = false) :
    scanner.advanceWhile goes = scanner.follow (.skipped (line.takeWhile skips)) := by
  have hline := List.takeWhile_append_dropWhile (p := skips) (l := line)
  have hall : ∀ c ∈ line.takeWhile skips, skips c = true := List.all_eq_true.1 List.all_takeWhile
  have hhead := List.head?_dropWhile_not skips line
  rw [← hline] at hfaces
  generalize line.takeWhile skips = front at hfaces hall ⊢
  generalize line.dropWhile skips = back at hfaces hhead
  refine advanceWhile_eq hfaces.rest_append hfaces.unbroken_front (fun done c todo hfront => ?_)
    fun c tail hback => ?_
  · have hc := hall c (by simp [hfront])
    rw [hfront, List.append_assoc, List.cons_append] at hfaces
    rw [← List.append_assoc, hinside _ _ _ hfaces.not_breaks, hc]
  · cases back with
    | nil => exact hend _ _ _ (hfaces.ended c tail hback)
    | cons d back =>
      obtain ⟨rfl, htail⟩ := List.cons.inj hback
      have hd : skips d = false := by simpa using hhead
      rw [← htail]
      exact (hinside _ _ _ hfaces.not_breaks).trans hd

/-- The rest of the line is skipped up to its end. -/
theorem skipLine_eq (hfaces : scanner.Faces line after) :
    scanner.skipLine = scanner.follow (.skipped line) := by
  have hskip : scanner.skipLine = scanner.follow (.skipped (line.takeWhile fun _ => true)) :=
    advanceWhile_takeWhile hfaces (by simp) (by simp)
  rwa [List.takeWhile_eq_self_iff.2 (by simp)] at hskip

theorem scanText_eq (hfaces : scanner.Faces line after) :
    scanner.scanText = (freeText line).foldl follow scanner := by
  have hmargin : scanner.advanceWhile (fun _ c _ => isMargin c) =
      scanner.follow (.skipped (line.takeWhile isMargin)) := by
    refine advanceWhile_takeWhile hfaces (fun _ _ _ _ => rfl) fun _ c rest hc => ?_
    obtain rfl | rfl := eq_of_breaksLine hc <;> rfl
  have hbody : (scanner.follow (.skipped (line.takeWhile isMargin))).Faces
      (line.dropWhile isMargin) after := by
    refine Faces.skipped ?_
    rwa [List.takeWhile_append_dropWhile]
  have hsplit := trimEnd_append_drop isBlank (line.dropWhile isMargin)
  simp only [scanText, freeText, hmargin, List.foldl_append, List.foldl_cons]
  generalize scanner.follow (.skipped (line.takeWhile isMargin)) = first at hbody ⊢
  generalize line.dropWhile isMargin = body at hbody hsplit ⊢
  simp only [skipLine_eq hbody, since_follow hbody.rest]
  generalize trimEnd isBlank body = text at hsplit ⊢
  split
  · next hempty =>
    rw [List.isEmpty_iff.1 hempty]
    rfl
  · have htext : (first.follow (.skipped body)).emit .text text first.place text.length =
        (first.follow (.token .text text text)).follow (.skipped (body.drop text.length)) := by
      rw [← emit_follow (by decide), ← emit_follow_skipped, follow_append, hsplit]
    exact htext

/-- Behind a token the free text that belongs to it is read. -/
theorem followed_eq {kind : TokenKind} {value covered : List Char}
    (hfaces : scanner.Faces (covered ++ line) after) :
    (if takesText kind then (scanner.follow (.token kind value covered)).scanText
      else scanner.follow (.token kind value covered)) =
      (followed kind value covered line).1.foldl follow scanner := by
  have hline : (scanner.follow (.token kind value covered)).Faces line after := hfaces.follow
  unfold followed
  split
  · rw [List.foldl_cons, scanText_eq hline]
  · rfl

theorem followed_eq_follow {kind : TokenKind} (htakes : takesText kind = false)
    {value covered : List Char} (hfaces : scanner.Faces (covered ++ line) after) :
    scanner.follow (.token kind value covered) =
      (followed kind value covered line).1.foldl follow scanner := by
  rw [← followed_eq hfaces, htakes]
  rfl

/-- The arrows are tried longest first. -/
theorem find?_arrows {text arrow : List Char} (harrow : arrow ∈ arrows) (hstart : arrow <+: text)
    (hlongest : ∀ other ∈ arrows, other <+: text → other.length ≤ arrow.length) :
    arrows.find? (·.isPrefixOf text) = some arrow := by
  -- No arrow is listed behind a shorter one, so that the first one found is a longest one.
  have hsorted : arrows.Pairwise fun first second => second.length ≤ first.length := by decide
  cases hfind : arrows.find? (·.isPrefixOf text) with
  | none =>
    have hnone := List.find?_eq_none.1 hfind arrow harrow
    exact absurd (List.isPrefixOf_iff_prefix.2 hstart) hnone
  | some found =>
    obtain ⟨hfound, front, back, hsplit, hbefore⟩ := List.find?_eq_some_iff_append.1 hfind
    have hprefix : found <+: text := List.isPrefixOf_iff_prefix.1 hfound
    have hle : found.length ≤ arrow.length := hlongest found (by simp [hsplit]) hprefix
    have hge : arrow.length ≤ found.length := by
      rw [hsplit] at harrow hsorted
      obtain harrow | harrow := List.mem_append.1 harrow
      · have hrefused := hbefore arrow harrow
        rw [List.isPrefixOf_iff_prefix.2 hstart] at hrefused
        cases hrefused
      · obtain rfl | harrow := List.mem_cons.1 harrow
        · exact Nat.le_refl _
        · exact (List.pairwise_cons.1 (List.pairwise_append.1 hsorted).2.1).1 arrow harrow
    have hsame := (List.prefix_of_prefix_length_le hprefix hstart hle).eq_of_length (by omega)
    rw [hsame]

theorem foldl_advance {front : List Char} (hfaces : scanner.Faces (front ++ line) after) :
    front.foldl (fun scanner _ => scanner.advance) scanner = scanner.follow (.skipped front) := by
  induction front generalizing scanner with
  | nil => simp [follow, Lexeme.source, tokensAt, Place.advance]
  | cons c front ih =>
    have hfirst : scanner.advance = scanner.follow (.skipped [c]) :=
      advance_eq hfaces.rest hfaces.unbroken.1
    have hnext : (scanner.follow (.skipped [c])).Faces (front ++ line) after :=
      @Faces.skipped _ _ _ [c] hfaces
    rw [List.foldl_cons, hfirst, ih hnext, follow_append]
    rfl

theorem scanArrow_eq (hfaces : scanner.Faces ('-' :: line) after) :
    scanner.scanArrow = (followed .arrow (splitArrow line).1 (splitArrow line).1
      (splitArrow line).2).1.foldl follow scanner := by
  have hsplit := splitArrow_append line
  have hlongest := splitArrow_longest_append line after hfaces.ended
  have harrow := (splitArrow_longest line).1
  rw [← hsplit] at hfaces
  generalize (splitArrow line).1 = arrow at *
  generalize (splitArrow line).2 = back at *
  have hfind : arrows.find? (·.isPrefixOf scanner.rest) = some arrow := by
    rw [hfaces.rest_append]
    exact find?_arrows harrow (List.prefix_append _ _) hlongest
  rw [scanArrow, hfind, ← followed_eq_follow rfl hfaces, ← emit_follow (by decide),
    ← foldl_advance hfaces]

/-- What follows a quote mark is read up to the next one, or up to the end of the line. -/
theorem advanceWhile_quoted (hfaces : scanner.Faces ('"' :: line) after) :
    scanner.advance = scanner.follow (.skipped ['"']) ∧
      (scanner.follow (.skipped ['"'])).Faces line after ∧
      (scanner.follow (.skipped ['"'])).advanceWhile
          (fun _ c rest => !breaksLine c rest && c ≠ '"') =
        (scanner.follow (.skipped ['"'])).follow (.skipped (line.takeWhile (· ≠ '"'))) := by
  have hfirst : (scanner.follow (.skipped ['"'])).Faces line after :=
    @Faces.skipped _ _ _ ['"'] hfaces
  refine ⟨advance_eq hfaces.rest hfaces.unbroken.1, hfirst, ?_⟩
  apply advanceWhile_takeWhile hfirst
  · intro place c rest hc
    simp [hc]
  · intro place c rest hc
    simp [hc]

theorem scanQuoted_closed {name : List Char} (hname : '"' ∉ name)
    (hfaces : scanner.Faces ('"' :: (name ++ '"' :: line)) after) :
    scanner.scanQuoted = scanner.follow (.token .name name ('"' :: name ++ ['"'])) := by
  obtain ⟨hquote, hfirst, hlast⟩ := advanceWhile_quoted hfaces
  have hinside : (name ++ '"' :: line).takeWhile (· ≠ '"') = name := by
    rw [List.takeWhile_append_of_pos fun c hc => by simpa using ne_of_mem_of_not_mem hc hname]
    simp
  rw [hinside] at hlast
  have hbehind : ((scanner.follow (.skipped ['"'])).follow (.skipped name)).Faces ('"' :: line) after :=
    hfirst.follow
  have hclose : ((scanner.follow (.skipped ['"'])).follow (.skipped name)).advance =
      scanner.follow (.skipped ('"' :: name ++ ['"'])) := by
    rw [advance_eq hbehind.rest hbehind.unbroken.1, follow_append, follow_append]
    rfl
  have hlength : (scanner.follow (.skipped ('"' :: name ++ ['"']))).place.offset - scanner.place.offset =
      ('"' :: name ++ ['"']).length := Nat.add_sub_cancel_left _ _
  have hvalue : ((scanner.follow (.skipped ['"'])).follow (.skipped name)).since
      (scanner.follow (.skipped ['"'])) = name :=
    since_follow (hfirst.rest.trans (List.append_assoc ..))
  have hhead : ((scanner.follow (.skipped ['"'])).follow (.skipped name)).rest.head? = some '"' := by
    rw [hbehind.rest]
    rfl
  simp only [scanQuoted, hquote, hlast, hhead, if_true, hclose, hvalue, hlength]
  exact emit_follow (by decide) name _

theorem scanQuoted_open (hline : '"' ∉ line) (hfaces : scanner.Faces ('"' :: line) after) :
    scanner.scanQuoted = scanner.follow (.token .invalid ('"' :: line) ('"' :: line)) := by
  obtain ⟨hquote, hfirst, hlast⟩ := advanceWhile_quoted hfaces
  have hinside : line.takeWhile (· ≠ '"') = line :=
    List.takeWhile_eq_self_iff.2 fun c hc => by simpa using ne_of_mem_of_not_mem hc hline
  rw [hinside, follow_append] at hlast
  have hbehind : (scanner.follow (.skipped ('"' :: line))).rest = after := by
    have hfaces : scanner.Faces (Lexeme.source (.skipped ('"' :: line)) ++ []) after := by
      simpa [Lexeme.source] using hfaces
    exact hfaces.follow.rest
  have hhead : (scanner.follow (.skipped ('"' :: line))).rest.head? ≠ some '"' := by
    rw [hbehind]
    intro hquote
    obtain ⟨tail, rfl⟩ := List.head?_eq_some_iff.1 hquote
    exact absurd (hfaces.ended _ _ rfl) (by simp [breaksLine])
  have hlast : (scanner.follow (.skipped ['"'])).advanceWhile
      (fun _ c rest => !breaksLine c rest && c ≠ '"') = scanner.follow (.skipped ('"' :: line)) := hlast
  simp only [scanQuoted, hquote, hlast, if_neg hhead]
  exact emitSince_follow (by decide) hfaces.rest

theorem scanWord_eq {c : Char} (hfaces : scanner.Faces (c :: line) after)
    (hstart : startsName c = true) :
    scanner.scanWord = (followed (wordKind (scanner.line.map kind) (c :: line.takeWhile continuesName))
      (c :: line.takeWhile continuesName) (c :: line.takeWhile continuesName)
      (line.dropWhile continuesName)).1.foldl follow scanner := by
  have hread : scanner.advanceWhile (fun _ d _ => continuesName d) =
      scanner.follow (.skipped ((c :: line).takeWhile continuesName)) := by
    refine advanceWhile_takeWhile hfaces (fun _ _ _ _ => rfl) fun _ d _ hd => ?_
    obtain rfl | rfl := eq_of_breaksLine hd <;> decide +kernel
  rw [List.takeWhile_cons_of_pos (by simp [continuesName, hstart])] at hread
  have hsplit : c :: line = (c :: line.takeWhile continuesName) ++ line.dropWhile continuesName := by
    rw [List.cons_append, List.takeWhile_append_dropWhile]
  rw [hsplit] at hfaces
  have hkind : wordKind (scanner.line.map kind) (c :: line.takeWhile continuesName) ≠ .lineBreak :=
    wordKind_ne _ _ (by simp) (by simp)
  rw [← followed_eq hfaces, scanWord, hread]
  simp only [since_follow hfaces.rest_append, emitSince_follow hkind hfaces.rest_append]

theorem goesOn_of_not_endsInvalid {c : Char} {rest : List Char} (hc : endsInvalid c rest = false)
    (first place : Place) : goesOn first place c rest = true := by
  simp only [endsInvalid, startsComment, Bool.or_eq_false_iff] at hc
  obtain ⟨⟨⟨⟨⟨hblank, hname⟩, hcolon⟩, hdash⟩, hquote⟩, hhash, hslash⟩ := hc
  simp only [goesOn, hblank, hname, hcolon, hdash, hquote, hhash, hslash]
  rfl

theorem goesOn_behind {first place : Place} (hplace : first.offset < place.offset) (c : Char)
    (rest : List Char) : goesOn first place c rest = !endsInvalid c rest := by
  simp only [goesOn, endsInvalid, startsComment, hplace, Bool.not_or, Bool.and_assoc,
    decide_true, Bool.and_true]

/-- A run without meaning takes its first character in any case, since nothing else starts there. -/
theorem scanInvalid_eq {c : Char} (hfaces : scanner.Faces (c :: line) after)
    (hc : endsInvalid c line = false) :
    scanner.scanInvalid = (followed .invalid (c :: (splitInvalid line).1) (c :: (splitInvalid line).1)
      (splitInvalid line).2).1.foldl follow scanner := by
  have hended := hfaces.ended
  have hsplit := splitInvalid_append line
  obtain ⟨hrun, hstops⟩ := splitInvalid_spec line
  rw [← hsplit] at hc hfaces
  generalize (splitInvalid line).1 = run at *
  generalize (splitInvalid line).2 = back at *
  have hfaces : scanner.Faces ((c :: run) ++ back) after := hfaces
  have hread : scanner.advanceWhile (goesOn scanner.place) =
      scanner.follow (.skipped (c :: run)) := by
    refine advanceWhile_eq hfaces.rest_append hfaces.unbroken_front (fun done d todo hfront => ?_)
      fun d tail hback => ?_
    · -- The first character is no start of a comment, though the run does not ask whether it is.
      refine goesOn_of_not_endsInvalid ?_ _ _
      rw [← List.append_assoc, endsInvalid_append hended]
      cases done with
      | nil =>
        obtain ⟨rfl, rfl⟩ := List.cons.inj hfront
        exact hc
      | cons e done => exact hrun done d todo (List.cons.inj hfront).2
    · have hends : endsInvalid d tail = true := by
        cases back with
        | nil => simp [endsInvalid, isBlank_of_breaksLine (hended d tail hback)]
        | cons e back =>
          obtain ⟨rfl, htail⟩ := List.cons.inj hback
          rw [← htail]
          exact (endsInvalid_append hended).trans (hstops e back rfl)
      rw [goesOn_behind (by simp [Place.advance]), hends]
      rfl
  rw [← followed_eq_follow rfl hfaces, scanInvalid, hread]
  exact emitSince_follow (by decide) hfaces.rest_append

/-- Reading a token reads the next lexemes of the line. -/
theorem scanToken_eq {c : Char} (hfaces : scanner.Faces (c :: line) after) (hgap : isGap c = false)
    (hcomment : startsComment c line = false) :
    scanner.scanToken = (next (scanner.line.map kind) c line).1.foldl follow scanner := by
  have hhead : scanner.rest.head? = some c := by
    rw [hfaces.rest]
    rfl
  simp only [scanToken, hhead, next, hgap, hcomment, Bool.false_eq_true, if_false]
  split
  · next hcolon =>
    subst hcolon
    have hemit : (scanner.follow (.skipped [':'])).emit .colon [':'] scanner.place 1 =
        scanner.follow (.token .colon [':'] [':']) := emit_follow (by decide) [':'] [':']
    rw [advance_eq hfaces.rest hfaces.unbroken.1, hemit]
    exact @followed_eq _ _ _ .colon [':'] [':'] hfaces
  split
  · next hdash =>
    subst hdash
    exact scanArrow_eq hfaces
  split
  · next hquote =>
    subst hquote
    split
    · next hopen =>
      have hline : '"' ∉ line := fun hmem => by
        simpa using List.dropWhile_eq_nil_iff.1 hopen _ hmem
      exact scanQuoted_open hline hfaces
    · next quote back hclosed =>
      have hquote : quote = '"' := by
        have hhead := List.head?_dropWhile_not (· ≠ '"') line
        rw [hclosed] at hhead
        simpa using hhead
      subst hquote
      have hname : '"' ∉ line.takeWhile (· ≠ '"') := fun hmem => by
        simpa using List.all_eq_true.1 List.all_takeWhile _ hmem
      have hsplit : line.takeWhile (· ≠ '"') ++ '"' :: back = line := by
        rw [← hclosed]
        exact List.takeWhile_append_dropWhile
      rw [← hsplit] at hfaces
      have hcovered : scanner.Faces (('"' :: line.takeWhile (· ≠ '"') ++ ['"']) ++ back) after := by
        simpa using hfaces
      rw [scanQuoted_closed hname hfaces]
      exact followed_eq_follow rfl hcovered
  split
  · next hname => exact scanWord_eq hfaces hname
  · next hcolon hdash hquote hname =>
    refine scanInvalid_eq hfaces ?_
    simp only [isGap, Bool.or_eq_false_iff] at hgap
    simp [endsInvalid, hgap.1, hname, hcolon, hdash, hquote, hcomment]

/-- A pass within a line reads its next lexemes. -/
theorem pass_eq {c : Char} (hfaces : scanner.Faces (c :: line) after) :
    scanner.pass = (next (scanner.line.map kind) c line).1.foldl follow scanner := by
  have hrest : scanner.rest = c :: (line ++ after) := hfaces.rest
  have hbreak : breaksLine c (line ++ after) = false := hfaces.unbroken.1
  simp only [pass, hrest, hbreak, Bool.false_eq_true, if_false, startsComment_append hfaces.ended]
  cases hgap : isGap c with
  | true => simp [next, hgap, advance_eq hrest hbreak]
  | false =>
    cases hcomment : startsComment c line with
    | true => simp [next, hgap, hcomment, skipLine_eq hfaces]
    | false => simpa using scanToken_eq hfaces hgap hcomment

end Line

end SequenceChart.Scanner
