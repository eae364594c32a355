import SequenceChart.Proofs.Diagram.Relocated
import SequenceChart.Proofs.Token.Trailing

namespace SequenceChart

/-- A text with its line feeds written as another line break. -/
def Text.writeBreaks (mark : List Char) (text : String) : String :=
  String.ofList (text.toList.flatMap fun c => if c = '\n' then mark else [c])

namespace Token

open Text

theorem relocates_unplaced : Relocates unplaced :=
  fun _ => ⟨rfl, rfl⟩

/-- The same line with white space at its end. -/
def Padded (source padded : List Char) : Prop :=
  ∃ tail, (∀ c ∈ tail, isBlank c = true) ∧ padded = source ++ tail

/-- Carriage returns break a text where its line feeds did. -/
theorem splitLines_return {text : List Char} (htext : '\r' ∉ text) :
    splitLines (text.flatMap fun c => if c = '\n' then ['\r'] else [c]) = splitLines text := by
  induction text with
  | nil => rfl
  | cons c text ih =>
    obtain ⟨hc, hrest⟩ := not_or.1 (mt List.mem_cons.2 htext)
    have hfeed : (text.flatMap fun c => if c = '\n' then ['\r'] else [c]).head? ≠ some '\n' := by
      intro hhead
      obtain ⟨d, _, hd⟩ := List.mem_flatMap.1 (List.mem_of_head? hhead)
      split at hd
      · cases List.mem_singleton.1 hd
      · next hother => exact hother (List.mem_singleton.1 hd).symm
    rw [List.flatMap_cons]
    by_cases hbreak : c = '\n'
    · subst hbreak
      simp [splitLines, breaksLine, hfeed, ih hrest]
    · simp [splitLines, breaksLine, hbreak, Ne.symm hc, ih hrest]

/-- The lines of a text with a carriage return at the end of each but the last one. -/
def withReturns (source : List Char) : List (List Char) → List Char × List (List Char)
  | [] => (source, [])
  | following :: rest =>
    (source ++ ['\r'], (withReturns following rest).1 :: (withReturns following rest).2)

theorem withReturns_cons (c : Char) (source : List Char) (rest : List (List Char)) :
    withReturns (c :: source) rest =
      (c :: (withReturns source rest).1, (withReturns source rest).2) := by
  cases rest <;> rfl

/-- When line feeds get a carriage return in front of them, it goes to the end of the line. -/
theorem splitLines_withReturns {text : List Char} (htext : '\r' ∉ text) :
    splitLines (text.flatMap fun c => if c = '\n' then ['\r', '\n'] else [c]) =
      withReturns (splitLines text).1 (splitLines text).2 := by
  induction text with
  | nil => rfl
  | cons c text ih =>
    obtain ⟨hc, hrest⟩ := not_or.1 (mt List.mem_cons.2 htext)
    rw [List.flatMap_cons]
    by_cases hbreak : c = '\n'
    · subst hbreak
      simp [splitLines, breaksLine, ih hrest, withReturns]
    · simp [splitLines, breaksLine, hbreak, Ne.symm hc, ih hrest, withReturns_cons]

theorem withReturns_padded (source : List Char) (rest : List (List Char)) :
    List.Forall₂ Padded (source :: rest)
      ((withReturns source rest).1 :: (withReturns source rest).2) := by
  induction rest generalizing source with
  | nil => exact .cons ⟨[], List.forall_mem_nil _, (List.append_nil source).symm⟩ .nil
  | cons following rest ih =>
    exact .cons ⟨['\r'], List.forall_mem_singleton.2 rfl, rfl⟩ (ih following)

/-- A carriage return in front of each line feed stands at the end of the line. -/
theorem splitLines_returnFeed {text : List Char} (htext : '\r' ∉ text) :
    List.Forall₂ Padded ((splitLines text).1 :: (splitLines text).2)
      ((splitLines (text.flatMap fun c => if c = '\n' then ['\r', '\n'] else [c])).1 ::
        (splitLines (text.flatMap fun c => if c = '\n' then ['\r', '\n'] else [c])).2) := by
  rw [splitLines_withReturns htext]
  exact withReturns_padded _ _

theorem extend_kind (tail : List Char) (token : Token) : (token.extend tail).kind = token.kind := by
  unfold extend
  split <;> rfl

end Token

namespace TokenLine

open Token

/-- Lines that are read alike: they make the same statement but for the places of its tokens, or both
    are rejected, or neither has tokens. -/
structure Agrees (line other : TokenLine) : Prop where
  statement : other.statement?.map (Statement.mapTokens unplaced) =
    line.statement?.map (Statement.mapTokens unplaced)
  rejected : other.problem?.isSome = line.problem?.isSome

theorem isSome_problem? (line : TokenLine) :
    line.problem?.isSome = (line.statement?.isNone && !line.body.isEmpty) := by
  obtain ⟨body, stop⟩ := line
  cases body with
  | nil => rfl
  | cons first rest =>
    simp only [problem?, statement?, outcome?]
    cases read stop first rest <;> rfl

theorem Form.kind_ne_invalid {line : List Token} {statement : Statement}
    (hform : Form line statement) {token : Token} (htoken : token ∈ line) : token.kind ≠ .invalid := by
  have hname {name : Token} (hname : name.IsName) : name.kind ≠ .invalid := by
    rw [hname.1]
    decide
  cases hform <;> grind

/-- A line with a token without a meaning makes no statement. -/
theorem statement?_of_invalid {line : TokenLine} {token : Token} (htoken : token ∈ line.body)
    (hinvalid : token.kind = .invalid) : line.statement? = none := by
  rw [Option.eq_none_iff_forall_ne_some]
  intro statement hstatement
  exact (form_of_statement? hstatement).kind_ne_invalid htoken hinvalid

/-- Lines with the same tokens are read alike, even if a quoted name without an end is longer in one
    of them: such a name has no meaning. -/
theorem agrees_of_extend {line other : TokenLine} (tail : List Char)
    (hbody : other.body.map unplaced = (line.body.map (extend tail)).map unplaced) :
    Agrees line other := by
  have hempty : other.body.isEmpty = line.body.isEmpty := by
    have hlength := congrArg List.length hbody
    simp only [List.length_map] at hlength
    rw [Bool.eq_iff_iff, List.isEmpty_iff_length_eq_zero, List.isEmpty_iff_length_eq_zero, hlength]
  have hstatement : other.statement?.map (Statement.mapTokens unplaced) =
      line.statement?.map (Statement.mapTokens unplaced) := by
    by_cases hinvalid : ∃ token ∈ line.body, token.kind = .invalid
    · obtain ⟨token, htoken, hkind⟩ := hinvalid
      have hextended : ((token.extend tail).unplaced) ∈ other.body.map unplaced := by
        rw [hbody]
        exact List.mem_map_of_mem (List.mem_map_of_mem htoken)
      obtain ⟨found, hfound, hsame⟩ := List.mem_map.1 hextended
      have hfoundKind : found.kind = .invalid := by
        have hunplaced : found.unplaced.kind = (token.extend tail).unplaced.kind :=
          congrArg Token.kind hsame
        exact hunplaced.trans ((extend_kind tail token).trans hkind)
      rw [statement?_of_invalid htoken hkind, statement?_of_invalid hfound hfoundKind]
    · have hfixed : line.body.map (extend tail) = line.body := by
        refine (List.map_congr_left fun token htoken => ?_).trans (List.map_id _)
        exact if_neg fun hopen => hinvalid ⟨token, htoken, hopen.1⟩
      rw [hfixed] at hbody
      rw [← statement?_map (relocates_unplaced.keeps _), ← statement?_map (relocates_unplaced.keeps _)]
      exact statement?_congr hbody
  refine ⟨hstatement, ?_⟩
  have hnone := congrArg Option.isNone hstatement
  rw [Option.isNone_map, Option.isNone_map] at hnone
  rw [isSome_problem?, isSome_problem?, hnone, hempty]

/-- White space at the end of a line does not change how it is read, and neither does the place of the
    line. -/
theorem agrees_of_contents {source tail other : List Char} (htail : ∀ c ∈ tail, Text.isBlank c = true)
    (hother : Lexeme.contents [] other = Lexeme.contents [] (source ++ tail))
    (line start number later : Nat) (stop last : Token) :
    Agrees ⟨ofLine line start source, stop⟩ ⟨ofLine number later other, last⟩ := by
  apply agrees_of_extend tail
  rw [ofLine, ofLine, ← Lexeme.place_ofLine_append htail, Lexeme.map_unplaced_place,
    Lexeme.map_unplaced_place]
  exact hother

/-- White space at the ends of lines does not change how they are read. -/
theorem ofTokens_agrees {source other : List Char} {rest others : List (List Char)}
    (hpadded : List.Forall₂ Padded (source :: rest) (other :: others)) (line start later : Nat) :
    List.Forall₂ Agrees (ofTokens (ofLines line start source rest))
      (ofTokens (ofLines line later other others)) := by
  induction rest generalizing source other others line start later with
  | nil =>
    obtain ⟨⟨tail, htail, rfl⟩, hrest⟩ := List.forall₂_cons.1 hpadded
    cases hrest
    rw [ofTokens_ofLines_nil, ofTokens_ofLines_nil]
    exact .cons (agrees_of_contents htail rfl line start line later _ _) .nil
  | cons following rest ih =>
    obtain ⟨⟨tail, htail, rfl⟩, hrest⟩ := List.forall₂_cons.1 hpadded
    cases hrest with
    | cons hfollowing hrest =>
      rw [ofTokens_ofLines_cons, ofTokens_ofLines_cons]
      exact .cons (agrees_of_contents htail rfl line start line later _ _)
        (ih (.cons hfollowing hrest) _ _ _)

/-- Whether something is reported of a line depends on how the lines are read, and not on the places
    of their tokens. -/
theorem isSome_fault? (before : List TokenLine) (line : TokenLine) (after : List TokenLine) :
    (fault? before line after).isSome = (line.problem?.isSome ||
      (line.statement?.map (Statement.mapTokens unplaced)).any fun statement =>
        ((statement.complaint? ((statements before).map (Statement.mapTokens unplaced))).or
          (statement.unclosed? ((statements after).map (Statement.mapTokens unplaced)))).isSome) := by
  cases houtcome : line.outcome? with
  | none => simp [fault?, problem?, statement?, houtcome]
  | some outcome =>
    cases outcome with
    | error problem => simp [fault?, problem?, statement?, houtcome]
    | ok statement =>
      simp only [fault?, problem?, statement?, houtcome, Option.map_some, Option.any_some,
        Statement.complaint?_map relocates_unplaced, Statement.unclosed?_map relocates_unplaced]
      cases statement.complaint? (statements before) <;> simp

theorem statements_agree {lines others : List TokenLine} (hagree : List.Forall₂ Agrees lines others) :
    (statements others).map (Statement.mapTokens unplaced) =
      (statements lines).map (Statement.mapTokens unplaced) := by
  induction hagree with
  | nil => rfl
  | cons hline hlines ih => exact statements_cons_congr hline.statement ih

/-- Something is reported of lines that are read alike between such lines, or of neither. -/
theorem Agrees.isSome_fault? {line other : TokenLine} {before after earlier later : List TokenLine}
    (hline : Agrees line other)
    (hbefore : (statements earlier).map (Statement.mapTokens unplaced) =
      (statements before).map (Statement.mapTokens unplaced))
    (hafter : (statements later).map (Statement.mapTokens unplaced) =
      (statements after).map (Statement.mapTokens unplaced)) :
    (fault? earlier other later).isSome = (fault? before line after).isSome := by
  rw [TokenLine.isSome_fault?, TokenLine.isSome_fault?, hline.rejected, hline.statement, hbefore,
    hafter]

theorem line_of_fault? {number : Int} {before after : List TokenLine} {line : TokenLine}
    {problem : Diagnostic} (hwords : line.Spelled)
    (hnumber : ∀ token ∈ line.tokens, token.line = number)
    (hfault : fault? before line after = some problem) : problem.token.line = number :=
  hnumber _ (token_mem_of_fault ((fault?_eq_some_iff hwords).1 hfault))

/-- Lines that are read alike have problems on the same lines. -/
theorem faults_agree {number : Int} {lines others before earlier : List TokenLine}
    (hagree : List.Forall₂ Agrees lines others)
    (hbefore : (statements earlier).map (Statement.mapTokens unplaced) =
      (statements before).map (Statement.mapTokens unplaced))
    (hlines : Numbered number lines) (hothers : Numbered number others)
    (hwords : ∀ line ∈ lines, line.Spelled) (hspelled : ∀ line ∈ others, line.Spelled) :
    (faults earlier others).map (·.token.line) = (faults before lines).map (·.token.line) := by
  induction hagree generalizing number before earlier with
  | nil => rfl
  | @cons line other lines others hline hrest ih =>
    obtain ⟨hword, hwords⟩ := List.forall_mem_cons.1 hwords
    obtain ⟨hspell, hspelled⟩ := List.forall_mem_cons.1 hspelled
    have hsome := hline.isSome_fault? hbefore (statements_agree hrest)
    rw [faults, faults, List.map_append, List.map_append,
      ih (statements_concat_congr hline.statement hbefore) hlines.2 hothers.2 hwords hspelled]
    congr 1
    cases hfault : fault? before line lines with
    | none =>
      rw [hfault, Option.isSome_none, Option.isSome_eq_false_iff, Option.isNone_iff_eq_none] at hsome
      rw [hsome]
    | some problem =>
      rw [hfault, Option.isSome_some] at hsome
      obtain ⟨found, hfound⟩ := Option.isSome_iff_exists.1 hsome
      rw [hfound]
      simp [line_of_fault? hword hlines.1 hfault, line_of_fault? hspell hothers.1 hfound]

end TokenLine

namespace Diagram

open Token TokenLine

/-- Texts whose lines are read alike give the same diagram, and problems on the same lines. -/
theorem ofText_agrees {text other : String}
    (hagree : List.Forall₂ Agrees (TokenLine.ofText text) (TokenLine.ofText other)) :
    ∃ diagram problems others, ofText text = .ok (diagram, problems) ∧
      ofText other = .ok (diagram, others) ∧
      others.map (·.token.line) = problems.map (·.token.line) := by
  refine ⟨((statements (TokenLine.ofText text)).foldl Builder.after (Builder.ofDiagram {})).diagram,
    _, _, ofText_eq_ok text, ?_, faults_agree hagree rfl (ofTokens_numbered 1 0 _ _)
      (ofTokens_numbered 1 0 _ _) (fun _ => spelled_of_mem) fun _ => spelled_of_mem⟩
  rw [ofText_eq_ok, ← Builder.foldl_after_mapTokens relocates_unplaced, statements_agree hagree,
    Builder.foldl_after_mapTokens relocates_unplaced]

/-- It does not matter how the lines of a text end. Carriage returns in the places of the line feeds
    give the very same tokens, and carriage returns in front of them give the same diagram and as
    many problems, on the same lines. -/
theorem ofText_writeBreaks {text : String} (htext : '\r' ∉ text.toList) :
    Token.ofText (Text.writeBreaks ['\r'] text) = Token.ofText text ∧
      ∃ diagram problems others, ofText text = .ok (diagram, problems) ∧
        ofText (Text.writeBreaks ['\r', '\n'] text) = .ok (diagram, others) ∧
        others.map (·.token.line) = problems.map (·.token.line) := by
  refine ⟨?_, ofText_agrees ?_⟩
  · rw [Token.ofText, Text.writeBreaks, String.toList_ofList, splitLines_return htext]
    rfl
  · rw [TokenLine.ofText, TokenLine.ofText, Token.ofText, Token.ofText, Text.writeBreaks,
      String.toList_ofList]
    exact ofTokens_agrees (splitLines_returnFeed htext) 1 0 0

/-- Free text, a comment and a quoted name without an end stand in front of line breaks. -/
theorem ofText_writeBreaks_quote :
    let text := "A -> B: x // y\n\nloop\n% # z\n\"C\nend\nelse"
    '\r' ∉ text.toList ∧ Token.ofText (Text.writeBreaks ['\r'] text) = Token.ofText text ∧
      ∃ diagram problems others, ofText text = .ok (diagram, problems) ∧
        ofText (Text.writeBreaks ['\r', '\n'] text) = .ok (diagram, others) ∧
        others.map (·.token.line) = problems.map (·.token.line) := by
  intro text
  have htext : '\r' ∉ text.toList := by decide
  exact ⟨htext, ofText_writeBreaks htext⟩

end Diagram

end SequenceChart
