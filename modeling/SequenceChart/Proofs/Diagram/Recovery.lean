import SequenceChart.Proofs.Diagram.Relocated
import SequenceChart.Proofs.Token.Spelled

namespace SequenceChart

namespace Token

/-- The token without its offset. -/
def unmeasured (token : Token) : Token :=
  { token with offset := 0 }

theorem relocates_unmeasured : Relocates unmeasured :=
  fun _ => ⟨rfl, rfl⟩

/-- A line starts after the first part of a text: there is nothing in front of it, or a line ends
    there. -/
def StartsLine (front rest : List Char) : Prop :=
  ∀ c ∈ front.getLast?, breaksLine c rest = true

/-- A text with one of its lines in it, up to the character that ends the line. -/
structure IsLine (front source back : List Char) : Prop where
  starts : StartsLine front (source ++ back)
  unbroken : Unbroken source back
  stops : AtLineEnd back

/-- Where the first part of a text has its line breaks does not depend on the line after it. -/
theorem StartsLine.breaksLine_eq {c : Char} {front rest : List Char}
    (hstarts : StartsLine (c :: front) rest) :
    breaksLine c (front ++ rest) = breaksLine c front := by
  cases front with
  | nil =>
    have hbreak : breaksLine c rest = true := hstarts c rfl
    obtain rfl | rfl := eq_of_breaksLine hbreak
    · rfl
    · exact hbreak
  | cons d front => rfl

theorem StartsLine.tail {c : Char} {front rest : List Char} (hstarts : StartsLine (c :: front) rest) :
    StartsLine front rest := by
  intro d hd
  apply hstarts
  rw [List.getLast?_cons, Option.mem_def.1 hd]
  rfl

/-- A mark at the start of a line does not undo the line break in front of it. -/
theorem StartsLine.mark {front rest other : List Char} (hstarts : StartsLine front rest) :
    StartsLine front ('#' :: other) := by
  intro c hc
  obtain rfl | rfl := eq_of_breaksLine (hstarts c hc)
  · rfl
  · rfl

/-- The lines of a text that starts with a piece of a line. -/
theorem splitLines_unbroken {source back : List Char} (hunbroken : Unbroken source back) :
    splitLines (source ++ back) = (source ++ (splitLines back).1, (splitLines back).2) := by
  induction source with
  | nil => rfl
  | cons c source ih =>
    obtain ⟨hbreak, hunbroken⟩ := hunbroken
    simp [splitLines, hbreak, ih hunbroken]

theorem AtLineEnd.splitLines_fst {back : List Char} (hstops : AtLineEnd back) :
    (splitLines back).1 = [] := by
  cases back with
  | nil => rfl
  | cons c rest => simp [splitLines, hstops c rest rfl]

/-- A comment holds no tokens. -/
theorem ofLine_comment (line start : Nat) (text : List Char) : ofLine line start ('#' :: text) = [] :=
  Lexeme.ofLine_of_contents (Lexeme.contents_comment (.inl rfl) text) line start

end Token

namespace TokenLine

open Token

/-- The lines that the first part of a text completes are the same whatever comes after it, and the
    lines of the rest follow them. -/
theorem ofTokens_front (front piece : List Char) (line start : Nat) (hpiece : front = [] → piece = []) :
    ∃ before next, before.length = (splitLines front).2.length ∧ ∀ rest, StartsLine front rest →
      ofTokens (ofLines line start (piece ++ (splitLines (front ++ rest)).1)
          (splitLines (front ++ rest)).2) =
        before ++ ofTokens (ofLines (line + before.length) next (splitLines rest).1
          (splitLines rest).2) := by
  -- The piece is what the text in front of the first part adds to its first line.
  induction front generalizing piece line start with
  | nil => exact ⟨[], start, rfl, fun rest _ => by simp [hpiece rfl]⟩
  | cons c front ih =>
    cases hbreak : breaksLine c front with
    | true =>
      obtain ⟨before, next, hcount, hlines⟩ :=
        ih [] (line + 1) (start + piece.length + 1) fun _ => rfl
      refine ⟨⟨ofLine line start piece, ending .lineBreak "\n" line start piece 1⟩ :: before, next, ?_,
        fun rest hstarts => ?_⟩
      · simp [splitLines, hbreak, hcount]
      · have hrest := hlines rest hstarts.tail
        have hnumber : line + (before.length + 1) = line + 1 + before.length := by omega
        rw [List.nil_append] at hrest
        simp only [List.cons_append, splitLines, hstarts.breaksLine_eq, hbreak, if_true,
          List.append_nil, List.length_cons, hnumber, ← hrest]
        exact ofTokens_ofLines_cons line start piece _ _
    | false =>
      by_cases hfront : front = []
      · -- No line starts here, so there is nothing to show.
        subst hfront
        refine ⟨[], start, by simp [splitLines, hbreak], fun rest hstarts => ?_⟩
        have hends := hstarts.breaksLine_eq
        rw [hbreak, List.nil_append, hstarts c rfl] at hends
        cases hends
      · obtain ⟨before, next, hcount, hlines⟩ := ih (piece ++ [c]) line start (absurd · hfront)
        refine ⟨before, next, by simp [splitLines, hbreak, hcount], fun rest hstarts => ?_⟩
        rw [← hlines rest hstarts.tail]
        simp [splitLines, hstarts.breaksLine_eq, hbreak]

/-- The lines after a line depend on it by their offsets only. -/
theorem ofTokens_source (line start : Nat) (back : List Char) :
    ∃ after, ∀ source, Unbroken source back → AtLineEnd back →
      ∃ stop later, ofTokens (ofLines line start (splitLines (source ++ back)).1
          (splitLines (source ++ back)).2) = ⟨ofLine line start source, stop⟩ :: later ∧
        later.map (mapTokens unmeasured) = after := by
  cases hlines : (splitLines back).2 with
  | nil =>
    refine ⟨[], fun source hunbroken hstops =>
      ⟨ending .endOfInput "" line start source 0, [], ?_, rfl⟩⟩
    rw [splitLines_unbroken hunbroken, hstops.splitLines_fst, hlines, List.append_nil,
      ofTokens_ofLines_nil]
  | cons following rest =>
    refine ⟨(ofTokens (ofLines (line + 1) 0 following rest)).map (mapTokens unmeasured),
      fun source hunbroken hstops => ⟨ending .lineBreak "\n" line start source 1,
        ofTokens (ofLines (line + 1) (start + source.length + 1) following rest), ?_, ?_⟩⟩
    · rw [splitLines_unbroken hunbroken, hstops.splitLines_fst, hlines, List.append_nil,
        ofTokens_ofLines_cons]
    · have hshift := ofLines_shift (line + 1) 0 0 (start + source.length + 1) following rest
      rw [Nat.add_zero, Nat.zero_add] at hshift
      have hsame : ∀ token : Token, unmeasured (shift 0 (start + source.length + 1) token) =
          unmeasured token := fun token => by simp [unmeasured, shift]
      have hmap (all : List Token) : (ofTokens all).map (mapTokens unmeasured) =
          ofTokens (all.map unmeasured) :=
        (ofTokens_map fun token _ => (relocates_unmeasured token).1).symm
      rw [hmap, hmap, hshift, List.map_map]
      exact congrArg ofTokens (List.map_congr_left fun token _ => hsame token)

theorem faults_congr {before other : List TokenLine} (hstatements : statements before = statements other)
    (lines : List TokenLine) : faults before lines = faults other lines := by
  induction lines generalizing before other with
  | nil => rfl
  | cons line rest ih =>
    have hnext : statements (before ++ [line]) = statements (other ++ [line]) := by
      rw [statements_concat, statements_concat, hstatements]
    rw [faults, faults, ih hnext, fault?, fault?, hstatements]

/-- A line without a statement has no influence on what is reported of the others. -/
theorem faults_idle (before front back : List TokenLine) :
    ∃ earlier later, ∀ line : TokenLine, line.statement? = none →
      faults before (front ++ line :: back) = earlier ++ line.problem?.toList ++ later := by
  induction front generalizing before with
  | nil =>
    refine ⟨[], faults before back, fun line hidle => ?_⟩
    have hstatements : statements (before ++ [line]) = statements before := by
      rw [statements_concat, hidle, Option.toList_none, List.append_nil]
    have hfault : fault? before line back = line.problem? := by
      cases houtcome : line.outcome? with
      | none => simp [fault?, problem?, houtcome]
      | some outcome =>
        cases outcome with
        | error problem => simp [fault?, problem?, houtcome]
        | ok statement =>
          rw [statement?_of_outcome? houtcome] at hidle
          cases hidle
    rw [List.nil_append, faults, hfault, faults_congr hstatements, List.nil_append]
  | cons first front ih =>
    obtain ⟨earlier, later, hrest⟩ := ih (before ++ [first])
    refine ⟨(fault? before first (front ++ back)).toList ++ earlier, later, fun line hidle => ?_⟩
    have hstatements : statements (front ++ line :: back) = statements (front ++ back) := by
      simp [statements, List.filterMap_cons_none hidle]
    have hfault : fault? before first (front ++ line :: back) =
        fault? before first (front ++ back) := by
      rw [fault?, fault?, hstatements]
    rw [List.cons_append, faults, hfault, hrest line hidle]
    simp only [List.append_assoc]

theorem outcome?_of_problem? {line : TokenLine} {problem : Diagnostic}
    (hproblem : line.problem? = some problem) : line.outcome? = some (.error problem) := by
  unfold problem? at hproblem
  split at hproblem
  · next houtcome =>
    cases hproblem
    exact houtcome
  · cases hproblem

theorem statement?_of_problem? {line : TokenLine} {problem : Diagnostic}
    (hproblem : line.problem? = some problem) : line.statement? = none := by
  simp [statement?, outcome?_of_problem? hproblem]

/-- A line of numbered ones is known by the number of any of its tokens. -/
theorem Numbered.line_unique {number : Int} {before after : List TokenLine} {line other : TokenLine}
    (hnumbered : Numbered number (before ++ line :: after)) (hother : other ∈ before ++ line :: after)
    {token : Token} (htoken : token ∈ other.tokens) (hline : token.line = number + before.length) :
    other = line := by
  obtain ⟨front, back, hlines⟩ := List.append_of_mem hother
  rw [hlines] at hnumbered
  have hnumber := hnumbered.line_eq htoken
  have hlength : before.length = front.length := by omega
  obtain ⟨rfl, hrest⟩ := List.append_inj hlines hlength
  cases hrest
  rfl

end TokenLine

/-- Where a problem is and what is said of it. -/
def Diagnostic.seen (problem : Diagnostic) : Int × Int × String :=
  (problem.token.line, problem.token.column, problem.message)

theorem Diagnostic.seen_unmeasured (problem : Diagnostic) :
    (problem.mapToken Token.unmeasured).seen = problem.seen := by
  have hmessage : (problem.mapToken Token.unmeasured).message = problem.message :=
    Script.message_mapToken (Token.relocates_unmeasured problem.token)
  simp only [seen, hmessage]
  rfl

namespace Diagram

open Token TokenLine

/-- Lines that do not make statements can be exchanged: the diagram stays, and so does what is
    reported of the other lines. -/
theorem ofText_exchange {text other : String} {before after later : List TokenLine}
    {line comment : TokenLine} {problem : Diagnostic}
    (htext : TokenLine.ofText text = before ++ line :: after)
    (hother : TokenLine.ofText other = before ++ comment :: later)
    (hlater : after.map (mapTokens unmeasured) = later.map (mapTokens unmeasured))
    (hproblem : line.problem? = some problem) (hcomment : comment.outcome? = none) :
    ∃ diagram earlier following remaining,
      ofText text = .ok (diagram, earlier ++ problem :: following) ∧
        ofText other = .ok (diagram, remaining) ∧
        remaining.map Diagnostic.seen = (earlier ++ following).map Diagnostic.seen := by
  have hline := statement?_of_problem? hproblem
  have hidle : comment.statement? = none := by simp [statement?, hcomment]
  have hsilent : comment.problem? = none := by simp [problem?, hcomment]
  obtain ⟨earlier, following, hfaults⟩ := faults_idle [] before after
  refine ⟨((statements (TokenLine.ofText text)).foldl Builder.after (Builder.ofDiagram {})).diagram,
    earlier, following, faults [] (before ++ comment :: later), ?_, ?_, ?_⟩
  · rw [ofText_eq_ok, htext, hfaults line hline, hproblem, Option.toList_some, List.append_assoc,
      List.singleton_append]
  · have hstatements : (statements (before ++ line :: after)).map (Statement.mapTokens unmeasured) =
        (statements (before ++ comment :: later)).map (Statement.mapTokens unmeasured) := by
      simp only [← statements_map relocates_unmeasured, List.map_append, List.map_cons, ← hlater]
      simp [statements, statement?_map (relocates_unmeasured.keeps _), hline, hidle]
    rw [ofText_eq_ok, hother, ← Builder.foldl_after_mapTokens relocates_unmeasured, ← hstatements,
      Builder.foldl_after_mapTokens relocates_unmeasured, htext]
  · have hmoved : (faults [] (before ++ comment :: later)).map (Diagnostic.mapToken unmeasured) =
        (faults [] (before ++ comment :: after)).map (Diagnostic.mapToken unmeasured) := by
      rw [← faults_map relocates_unmeasured, ← faults_map relocates_unmeasured]
      simp only [List.map_append, List.map_cons, hlater]
    have hseen (problems : List Diagnostic) : problems.map Diagnostic.seen =
        (problems.map (Diagnostic.mapToken unmeasured)).map Diagnostic.seen := by
      rw [List.map_map]
      exact List.map_congr_left fun problem _ => (problem.seen_unmeasured).symm
    rw [hseen, hmoved, ← hseen, hfaults comment hidle, hsilent, Option.toList_none, List.append_nil]

/-- A line that is rejected has no influence on the others. When it is commented out, the diagram
    stays, the problem with the line is gone, and every other problem keeps its line, its column and
    its message, in the same order. The line may also keep what it ends with behind the mark, as a
    carriage return that a line feed follows. -/
theorem ofText_commented {text : String} {front source back : List Char} {script : Script}
    {rejected : Diagnostic} (htext : text.toList = front ++ source ++ back)
    (hline : IsLine front source back) (hscript : Script.ofText text = .ok script)
    (hrejected : rejected ∈ script.problems)
    (hnumber : rejected.token.line = (splitLines front).2.length + 1) {kept : List Char}
    (hkept : kept <:+ source) :
    ∃ diagram earlier later others,
      ofText text = .ok (diagram, earlier ++ rejected :: later) ∧
        ofText (String.ofList (front ++ '#' :: kept ++ back)) = .ok (diagram, others) ∧
        others.map Diagnostic.seen = (earlier ++ later).map Diagnostic.seen := by
  obtain ⟨before, next, hcount, hfront⟩ := ofTokens_front front [] 1 0 fun _ => rfl
  obtain ⟨after, hback⟩ := ofTokens_source (1 + before.length) next back
  obtain ⟨stop, rest, hsource, hrest⟩ := hback source hline.unbroken hline.stops
  have hunbroken : Unbroken ('#' :: kept) back := by
    obtain ⟨dropped, rfl⟩ := hkept
    exact ⟨by simp [breaksLine], ((unbroken_append dropped kept back).1 hline.unbroken).2⟩
  obtain ⟨last, later, hcomment, hlater⟩ := hback ('#' :: kept) hunbroken hline.stops
  have hstarts : StartsLine front ('#' :: kept ++ back) := hline.starts.mark
  have htokens : TokenLine.ofText text =
      before ++ ⟨ofLine (1 + before.length) next source, stop⟩ :: rest := by
    have hlines := hfront (source ++ back) hline.starts
    rw [hsource, ← List.append_assoc, ← htext, List.nil_append] at hlines
    exact hlines
  have hothers : TokenLine.ofText (String.ofList (front ++ '#' :: kept ++ back)) =
      before ++ ⟨[], last⟩ :: later := by
    have hlines := hfront ('#' :: kept ++ back) hstarts
    rw [hcomment, ofLine_comment, ← List.append_assoc, List.nil_append] at hlines
    rw [TokenLine.ofText, Token.ofText, String.toList_ofList]
    exact hlines
  have hnumbered : Numbered 1 (TokenLine.ofText text) := ofTokens_numbered 1 0 _ _
  rw [Script.ofText_eq_ok] at hscript
  cases hscript
  obtain ⟨line, hmem, hproblem⟩ := List.mem_filterMap.1 hrejected
  rw [htokens] at hnumbered hmem
  have hfault : Fault [] line [] rejected := .rejected (outcome?_of_problem? hproblem)
  have htoken := token_mem_of_fault hfault
  have hfound : line = ⟨ofLine (1 + before.length) next source, stop⟩ :=
    hnumbered.line_unique hmem htoken (by omega)
  rw [hfound] at hproblem
  exact ofText_exchange htokens hothers (hrest.trans hlater.symm) hproblem rfl

/-- The rejected line starts a quoted name that would reach over the end of the fragment. -/
theorem ofText_commented_quote :
    let text := "alt\nend \"b\r\nend\n-> b"
    let front := "alt\n".toList
    let source := "end \"b\r".toList
    let back := "\nend\n-> b".toList
    let script : Script := {
      statements := [.openFragment ⟨.keyword (.fragment .alt), "alt", 1, 1, 0, 3⟩ none,
        .closeFragment ⟨.keyword .close, "end", 3, 1, 12, 3⟩]
      problems := [⟨⟨.invalid, "\"b\r", 2, 5, 8, 3⟩, .endExpected⟩,
        ⟨⟨.arrow, "->", 4, 1, 16, 2⟩, .unexpected⟩] }
    let rejected : Diagnostic := ⟨⟨.invalid, "\"b\r", 2, 5, 8, 3⟩, .endExpected⟩
    text.toList = front ++ source ++ back ∧ IsLine front source back ∧
      Script.ofText text = .ok script ∧ rejected ∈ script.problems ∧
      rejected.token.line = (splitLines front).2.length + 1 ∧ ['\r'] <:+ source ∧
      ∃ diagram earlier later others,
        ofText text = .ok (diagram, earlier ++ rejected :: later) ∧
          ofText (String.ofList (front ++ '#' :: ['\r'] ++ back)) = .ok (diagram, others) ∧
          others.map Diagnostic.seen = (earlier ++ later).map Diagnostic.seen := by
  intro text front source back script rejected
  have htext : text.toList = front ++ source ++ back := by decide
  have hline : IsLine front source back := by
    refine ⟨?_, ?_, atLineEnd_cons rfl⟩
    · have hlast : front.getLast? = some '\n' := by decide
      intro c hc
      rw [hlast] at hc
      cases hc
      rfl
    · repeat' constructor
  have hscript : Script.ofText text = .ok script := by decide +kernel
  have hrejected : rejected ∈ script.problems := by decide
  have hnumber : rejected.token.line = (splitLines front).2.length + 1 := by decide
  have hkept : ['\r'] <:+ source := by decide
  exact ⟨htext, hline, hscript, hrejected, hnumber, hkept,
    ofText_commented htext hline hscript hrejected hnumber hkept⟩

end Diagram

end SequenceChart
