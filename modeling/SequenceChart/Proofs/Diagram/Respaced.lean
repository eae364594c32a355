import SequenceChart.Proofs.Diagram.LineBreaks

namespace SequenceChart

namespace Text

open Lexeme Token

/-- A line without tokens: white space, and perhaps a comment behind it. -/
inductive IsIdle : List Char → Prop where
  | blank {line : List Char} (hblank : ∀ c ∈ line, isGap c = true) : IsIdle line
  | comment {lead mark comment : List Char} (hlead : ∀ c ∈ lead, isGap c = true)
      (hmark : mark = ['#'] ∨ mark = ['/', '/']) : IsIdle (lead ++ (mark ++ comment))

/-- The lines of a text with white space put in front of them and behind them, and with lines without
    tokens put between them. Nothing that is put in ends a line. -/
inductive Respaced : List (List Char) → List (List Char) → Prop where
  | nil : Respaced [] []
  | line {lead source tail : List Char} {lines others : List (List Char)}
      (hlead : ∀ c ∈ lead, isGap c = true) (htail : ∀ c ∈ tail, isBlank c = true)
      (hinside : OneLine (lead ++ tail)) (hrest : Respaced lines others) :
      Respaced (source :: lines) ((lead ++ (source ++ tail)) :: others)
  | inserted {idle : List Char} {lines others : List (List Char)} (hidle : IsIdle idle)
      (hinside : OneLine idle) (hrest : Respaced lines others) : Respaced lines (idle :: others)

/-- No carriage return comes in with white space or with lines without tokens. -/
theorem Respaced.not_mem_return {lines others : List (List Char)} (hspaced : Respaced lines others)
    (hlines : ∀ line ∈ lines, '\r' ∉ line) : ∀ other ∈ others, '\r' ∉ other := by
  have hreturn {text : List Char} (hinside : OneLine text) : '\r' ∉ text := fun hmem =>
    (hinside _ hmem).2 rfl
  induction hspaced with
  | nil => exact hlines
  | line hlead htail hinside hrest ih =>
    obtain ⟨hsource, hlines⟩ := List.forall_mem_cons.1 hlines
    have hadded := hreturn hinside
    refine List.forall_mem_cons.2 ⟨?_, ih hlines⟩
    simp only [List.mem_append, not_or] at hadded ⊢
    exact ⟨hadded.1, hsource, hadded.2⟩
  | inserted hidle hinside hrest ih => exact List.forall_mem_cons.2 ⟨hreturn hinside, ih hlines⟩

end Text

namespace Token

/-- A character other than the one at which a text is split is in one of its parts. -/
theorem mem_iff_mem_splitOn {c d : Char} (hcd : c ≠ d) (text : List Char) :
    c ∈ text ↔ ∃ part ∈ text.splitOn d, c ∈ part := by
  unfold List.splitOn
  induction text with
  | nil => simp
  | cons first text ih =>
    rw [List.splitOnP_cons_eq_if_modifyHead, List.mem_cons, ih]
    split
    · next hfirst =>
      rw [beq_iff_eq] at hfirst
      simp [hfirst, hcd]
    · cases hparts : text.splitOnP (· == d) with
      | nil => exact absurd hparts (List.splitOnP_ne_nil _ _)
      | cons part parts => simp [or_assoc]

/-- Without carriage returns, a text is split at its line feeds. -/
theorem splitLines_eq_splitOn {text : List Char} (htext : '\r' ∉ text) :
    (splitLines text).1 :: (splitLines text).2 = text.splitOn '\n' := by
  unfold List.splitOn
  induction text with
  | nil => rfl
  | cons c text ih =>
    obtain ⟨hc, hrest⟩ := not_or.1 (mt List.mem_cons.2 htext)
    rw [List.splitOnP_cons_eq_if_modifyHead, ← ih hrest]
    by_cases hbreak : c = '\n'
    · subst hbreak
      simp [splitLines, breaksLine]
    · simp [splitLines, breaksLine, hbreak, Ne.symm hc]

end Token

namespace Lexeme

open Text Token

variable {seen : List TokenKind}

theorem contents_idle {line : List Char} (hidle : IsIdle line) : contents seen line = [] := by
  cases hidle with
  | blank hblank => exact contents_blank hblank
  | comment hlead hmark => rw [contents_gaps hlead, contents_comment hmark]

end Lexeme

namespace TokenLine

open Text Token

/-- Lines that are read alike, among which there are more lines without tokens. -/
inductive Interspersed : List TokenLine → List TokenLine → Prop where
  | nil : Interspersed [] []
  | cons {line other : TokenLine} {lines others : List TokenLine} (hline : Agrees line other)
      (hrest : Interspersed lines others) : Interspersed (line :: lines) (other :: others)
  | idle {idle : TokenLine} {lines others : List TokenLine} (hempty : idle.body = [])
      (hrest : Interspersed lines others) : Interspersed lines (idle :: others)

theorem outcome?_of_empty {line : TokenLine} (hempty : line.body = []) : line.outcome? = none := by
  obtain ⟨body, stop⟩ := line
  obtain rfl := hempty
  rfl

theorem statement?_of_empty {line : TokenLine} (hempty : line.body = []) : line.statement? = none := by
  simp [statement?, outcome?_of_empty hempty]

theorem Interspersed.statements {lines others : List TokenLine} (hlines : Interspersed lines others) :
    (statements others).map (Statement.mapTokens unplaced) =
      (statements lines).map (Statement.mapTokens unplaced) := by
  induction hlines with
  | nil => rfl
  | cons hline hrest ih => exact statements_cons_congr hline.statement ih
  | idle hempty hrest ih =>
    rw [statements_cons, statement?_of_empty hempty]
    exact ih

/-- As much is reported of lines that are read alike, and nothing of lines without tokens. -/
theorem Interspersed.length_faults {lines others before earlier : List TokenLine}
    (hlines : Interspersed lines others)
    (hbefore : (TokenLine.statements earlier).map (Statement.mapTokens unplaced) =
      (TokenLine.statements before).map (Statement.mapTokens unplaced)) :
    (faults earlier others).length = (faults before lines).length := by
  induction hlines generalizing before earlier with
  | nil => rfl
  | cons hline hrest ih =>
    rw [faults, faults, List.length_append, List.length_append,
      ih (statements_concat_congr hline.statement hbefore), Option.length_toList,
      Option.length_toList, hline.isSome_fault? hbefore hrest.statements]
  | @idle idle lines others hempty hrest ih =>
    have hsilent : fault? earlier idle others = none := by
      rw [fault?, outcome?_of_empty hempty]
    rw [faults, hsilent, Option.toList_none, List.nil_append]
    refine ih ?_
    rw [statements_concat, statement?_of_empty hempty, Option.toList_none, List.append_nil, hbefore]

/-- The lines of tokens that some lines of a text make. -/
def ofSources (line start : Nat) : List (List Char) → List TokenLine
  | [] => []
  | source :: rest => ofTokens (ofLines line start source rest)

theorem ofSources_cons (line start : Nat) (source : List Char) (rest : List (List Char)) :
    ∃ stop, ofSources line start (source :: rest) =
      ⟨ofLine line start source, stop⟩ :: ofSources (line + 1) (start + source.length + 1) rest := by
  cases rest with
  | nil => exact ⟨_, ofTokens_ofLines_nil line start source⟩
  | cons following rest => exact ⟨_, ofTokens_ofLines_cons line start source following rest⟩

theorem ofText_eq_ofSources {text : String} (htext : '\r' ∉ text.toList) :
    TokenLine.ofText text = ofSources 1 0 (text.toList.splitOn '\n') := by
  rw [← splitLines_eq_splitOn htext]
  rfl

theorem ofSources_respaced {lines others : List (List Char)} (hspaced : Respaced lines others)
    (line start number later : Nat) :
    Interspersed (ofSources line start lines) (ofSources number later others) := by
  induction hspaced generalizing line start number later with
  | nil => exact .nil
  | @line lead source tail lines others hlead htail hinside hrest ih =>
    obtain ⟨stop, hline⟩ := ofSources_cons line start source lines
    obtain ⟨last, hother⟩ := ofSources_cons number later (lead ++ (source ++ tail)) others
    rw [hline, hother]
    exact .cons (agrees_of_contents htail (Lexeme.contents_gaps hlead _) ..) (ih ..)
  | @inserted idle lines others hidle hinside hrest ih =>
    obtain ⟨last, hother⟩ := ofSources_cons number later idle others
    rw [hother]
    exact .idle (Lexeme.ofLine_of_contents (Lexeme.contents_idle hidle) number later) (ih ..)

end TokenLine

namespace Diagram

open Lexeme Text Token TokenLine

/-- It does not matter where a text has white space in front of its lines and behind them, or lines
    that are blank or hold nothing but a comment: the diagram stays, and so does the number of
    problems. -/
theorem ofText_respaced {text other : String} (htext : '\r' ∉ text.toList)
    (hspaced : Respaced (text.toList.splitOn '\n') (other.toList.splitOn '\n')) :
    ∃ diagram problems others, ofText text = .ok (diagram, problems) ∧
      ofText other = .ok (diagram, others) ∧ others.length = problems.length := by
  have hreturn {text : List Char} : '\r' ∉ text ↔ ∀ line ∈ text.splitOn '\n', '\r' ∉ line := by
    rw [mem_iff_mem_splitOn (d := '\n') (by decide)]
    simp
  have hother : '\r' ∉ other.toList := hreturn.2 (hspaced.not_mem_return (hreturn.1 htext))
  have hlines : Interspersed (TokenLine.ofText text) (TokenLine.ofText other) := by
    rw [ofText_eq_ofSources htext, ofText_eq_ofSources hother]
    exact ofSources_respaced hspaced 1 0 1 0
  refine ⟨_, _, _, ofText_eq_ok text, ?_, hlines.length_faults rfl⟩
  rw [ofText_eq_ok, ← Builder.foldl_after_mapTokens relocates_unplaced, hlines.statements,
    Builder.foldl_after_mapTokens relocates_unplaced]

/-- A message and the end of a fragment get white space around them, a quoted name without an end gets
    longer, and comments and a blank line come in. -/
theorem ofText_respaced_comment :
    let text := "A -> B: x\n\"C\nend"
    let other := "\uFEFF A -> B: x \t\n // note\n\"C  \n\n\tend\u3000\n# z"
    '\r' ∉ text.toList ∧ Respaced (text.toList.splitOn '\n') (other.toList.splitOn '\n') ∧
      ∃ diagram problems others, ofText text = .ok (diagram, problems) ∧
        ofText other = .ok (diagram, others) ∧ others.length = problems.length := by
  intro text other
  have htext : '\r' ∉ text.toList := by decide
  have hlines : text.toList.splitOn '\n' = ["A -> B: x".toList, "\"C".toList, "end".toList] := by
    decide
  have hothers : other.toList.splitOn '\n' = ["\uFEFF ".toList ++ ("A -> B: x".toList ++ " \t".toList),
      [' '] ++ (['/', '/'] ++ " note".toList), [] ++ ("\"C".toList ++ "  ".toList), [],
      ['\t'] ++ ("end".toList ++ ['\u3000']), [] ++ (['#'] ++ " z".toList)] := by
    decide
  have hspaced : Respaced (text.toList.splitOn '\n') (other.toList.splitOn '\n') := by
    rw [hlines, hothers]
    -- Asked about all characters of a list, `decide` may go through all characters there are.
    have hgaps {lead : List Char} (hall : lead.all isGap = true) : ∀ c ∈ lead, isGap c = true :=
      List.all_eq_true.1 hall
    have hblanks {tail : List Char} (hall : tail.all isBlank = true) :
        ∀ c ∈ tail, isBlank c = true := List.all_eq_true.1 hall
    refine .line (hgaps ?_) (hblanks ?_) ?_ (.inserted (.comment (hgaps ?_) (.inr rfl)) ?_
      (.line (hgaps ?_) (hblanks ?_) ?_ (.inserted (.blank (hgaps ?_)) ?_
        (.line (hgaps ?_) (hblanks ?_) ?_ (.inserted (.comment (hgaps ?_) (.inl rfl)) ?_ .nil))))) <;>
      decide
  exact ⟨htext, hspaced, ofText_respaced htext hspaced⟩

end Diagram

end SequenceChart
