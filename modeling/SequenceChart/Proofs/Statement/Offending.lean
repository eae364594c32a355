import SequenceChart.Proofs.Statement.Outcomes
import SequenceChart.Proofs.Statement.Stops
import SequenceChart.Statement.Reader

namespace SequenceChart

namespace TokenLine

/-- Whether the tokens of a line make a statement. -/
def Makes (line : List Token) : Prop :=
  ∃ statement, Form line statement

/-- Tokens that a line which makes a statement may begin with. The token that ends the line counts
    too. -/
def Viable (front : List Token) : Prop :=
  ∃ line : TokenLine, Makes line.body ∧ line.stop.EndsLine ∧ front <+: line.tokens

/-- A keyword at the start of a title, or in front of the label of a participant, that its text does
    not follow. -/
inductive LacksText : List Token → Token → Prop where
  | title {keyword : Token} {rest : List Token} (hkeyword : keyword.kind = .keyword .title)
      (htext : ∀ text ∈ rest.head?, text.kind ≠ .text) : LacksText (keyword :: rest) keyword
  | label {keyword name as : Token} {rest : List Token}
      (hkeyword : keyword.kind = .keyword .participant) (hname : name.IsName)
      (has : as.kind = .keyword .label) (htext : ∀ text ∈ rest.head?, text.kind ≠ .text) :
      LacksText (keyword :: name :: as :: rest) as

/-- The token of a line that is to blame if the line makes no statement: a keyword without its text,
    or else the first token such that no line that makes a statement begins with the tokens up to
    it. -/
structure Offends (line : TokenLine) (token : Token) : Prop where
  keyword : ∀ keyword, LacksText line.body keyword → token = keyword
  first : (∀ keyword, ¬ LacksText line.body keyword) →
    ∃ front back, line.tokens = front ++ token :: back ∧ Viable front ∧ ¬ Viable (front ++ [token])

theorem makes_cons_iff (stop : Token) {first : Token} {rest : List Token} :
    Makes (first :: rest) ↔ Succeeds (read stop first) rest :=
  exists_congr fun _ => read_eq_ok_iff.symm

section Read

variable {stop first : Token} {rest : List Token} {problem : Diagnostic}

/-- Behind its first token a kind of line has a reader of its own, which stops where the line does. -/
theorem Stops.of_reader {reader : List Token → Except Diagnostic Statement} {token : Token}
    (hstops : Stops (Succeeds reader) stop rest token)
    (hreader : ∀ line, read stop first line = reader line) :
    Stops Makes stop (first :: rest) token :=
  hstops.cons fun line => by
    rw [makes_cons_iff stop, Succeeds, hreader]
    rfl

/-- A line stops at its first token if none that begins with it makes a statement. -/
theorem Stops.of_first
    (hfirst : ∀ line, ∃ problem, read stop first line = .error problem ∧ problem.token = first)
    (hread : read stop first rest = .error problem) :
    Stops Makes stop (first :: rest) problem.token := by
  obtain ⟨own, hown, htoken⟩ := hfirst rest
  obtain rfl := Except.error.inj (hread.symm.trans hown)
  rw [htoken]
  refine .here ⟨[⟨.keyword .close, "end", 1, 1, 0, 3⟩], _, .closeFragment rfl⟩ fun more hmore => ?_
  obtain ⟨other, hother, -⟩ := hfirst more
  exact not_succeeds_of_error hother ((makes_cons_iff stop).1 hmore)

theorem readActivation_stops
    (hreader : ∀ line, read stop first line =
      (takeName stop line >>= fun taken => finish (.activation first taken.1) taken.2))
    (hread : read stop first rest = .error problem) :
    Stops Makes stop (first :: rest) problem.token :=
  Stops.of_reader (takeName_bind_stops (fun taken => finish (.activation first taken.1) taken.2)
    ⟨⟨.name, "A", 1, 10, 9, 1⟩, [], by simp [Token.IsName], _, rfl⟩
    (fun _ _ _ _ => finish_stops stop) ((hreader rest).symm.trans hread)) hreader

theorem readText_stops (make : Option Token → Statement)
    (hreader : ∀ line, read stop first line = finishText make line)
    (hread : read stop first rest = .error problem) :
    Stops Makes stop (first :: rest) problem.token :=
  Stops.of_reader (finishText_stops stop ((hreader rest).symm.trans hread)) hreader

/-- A line that makes no statement stops at the token of its problem, unless a keyword lacks its
    text. -/
theorem read_stops (htext : ∀ keyword, ¬ LacksText (first :: rest) keyword)
    (hread : read stop first rest = .error problem) :
    Stops Makes stop (first :: rest) problem.token := by
  have hunexpected (hreader : ∀ line, read stop first line = .error (unexpected first)) :
      Stops Makes stop (first :: rest) problem.token :=
    .of_first (fun line => ⟨_, hreader line, unexpected_token first⟩) hread
  cases hkind : first.kind with
  | keyword word =>
    cases word with
    | title =>
      have hreader (line : List Token) : read stop first line = readTitle first line := by
        rw [read, hkind]
      refine .of_reader (readTitle_stops ?_ ((hreader rest).symm.trans hread)) hreader
      by_contra hnone
      exact htext first (.title hkind fun text hhead hkind => hnone ⟨text, hhead, hkind⟩)
    | participant =>
      have hreader (line : List Token) : read stop first line = readParticipant stop line := by
        rw [read, hkind]
      refine .of_reader (readParticipant_stops (fun name as tail hrest hname has => ?_)
        ((hreader rest).symm.trans hread)) hreader
      subst hrest
      by_contra hnone
      exact htext as (.label hkind hname has fun text hhead hkind => hnone ⟨text, hhead, hkind⟩)
    | activate => exact readActivation_stops (fun line => by rw [read, hkind]) hread
    | deactivate => exact readActivation_stops (fun line => by rw [read, hkind]) hread
    | fragment kind =>
      exact readText_stops (.openFragment first) (fun line => by rw [read, hkind]; rfl) hread
    | elseOperand =>
      exact readText_stops (.nextOperand first) (fun line => by rw [read, hkind]; rfl) hread
    | andOperand =>
      exact readText_stops (.nextOperand first) (fun line => by rw [read, hkind]; rfl) hread
    | close =>
      have hreader (line : List Token) :
          read stop first line = finish (.closeFragment first) line := by
        rw [read, hkind]
      exact .of_reader (finish_stops stop ((hreader rest).symm.trans hread)) hreader
    | label => exact hunexpected fun line => by rw [read, hkind]
  | name =>
    have hname (line : List Token) : read stop first line = readName stop (first :: line) := by
      rw [read, hkind]
    by_cases hfirst : first.IsName
    · have hreader (line : List Token) : read stop first line = readArrow stop first line := by
        rw [hname, readName_eq hfirst]
      exact .of_reader (readArrow_stops ((hreader rest).symm.trans hread)) hreader
    · refine .of_first (fun line => ⟨⟨first, .nameExpected⟩, ?_, rfl⟩) hread
      have hempty : first.value = "" := by simpa [Token.IsName, hkind] using hfirst
      rw [hname, readName, takeName]
      simp [hkind, hempty, bind, Except.bind]
  | arrow => exact hunexpected fun line => by rw [read, hkind]
  | colon => exact hunexpected fun line => by rw [read, hkind]
  | text => exact hunexpected fun line => by rw [read, hkind]
  | lineBreak => exact hunexpected fun line => by rw [read, hkind]
  | invalid => exact hunexpected fun line => by rw [read, hkind]
  | endOfInput => exact hunexpected fun line => by rw [read, hkind]

/-- A keyword that lacks its text has the problem of its line. -/
theorem read_lacksText {keyword : Token} (htext : LacksText (first :: rest) keyword)
    (hread : read stop first rest = .error problem) : problem.token = keyword := by
  have htake {rest : List Token} (htext : ∀ text ∈ rest.head?, text.kind ≠ .text) :
      take? .text rest = (none, rest) := by
    obtain ⟨text, tail, rfl, hkind, -⟩ | ⟨-, htake⟩ := take?_cases .text rest
    · exact absurd hkind (htext text rfl)
    · exact htake
  cases htext with
  | title hkeyword htext =>
    simp only [read, hkeyword, readTitle, htake htext] at hread
    cases hread
    rfl
  | @label _ name as rest hkeyword hname has htext =>
    have htaken : takeName stop (name :: keyword :: rest) = .ok (name, keyword :: rest) :=
      takeName_eq_ok_iff.2 ⟨rfl, hname⟩
    have has : take? (.keyword .label) (keyword :: rest) = (some keyword, rest) := if_pos has
    simp only [read, hkeyword, readParticipant, htaken, bind, Except.bind, has, htake htext] at hread
    cases hread
    rfl

end Read

/-- No token of a line that makes a statement ends a line. -/
theorem Form.not_endsLine {line : List Token} {statement : Statement} (hform : Form line statement)
    {token : Token} (htoken : token ∈ line) : ¬ token.EndsLine := by
  have hname {name : Token} (hname : name.IsName) : ¬ name.EndsLine := by
    simp [Token.EndsLine, hname.1]
  cases hform <;> grind [Token.EndsLine]

/-- Where a line stops, it stops being viable. -/
theorem Stops.viable {line : TokenLine} {token : Token}
    (hstops : Stops Makes line.stop line.body token) (hline : ¬ Makes line.body)
    (hbody : ∀ token ∈ line.body, ¬ token.EndsLine)
    (hstop : line.stop.EndsLine) :
    ∃ front back, line.tokens = front ++ token :: back ∧ Viable front ∧
      ¬ Viable (front ++ [token]) := by
  have hviable {front more : List Token} (hmakes : Makes (front ++ more)) : Viable front :=
    ⟨⟨front ++ more, line.stop⟩, hmakes, hstop,
      (List.prefix_append _ _).trans (List.prefix_append _ _)⟩
  obtain ⟨front, back, hsplit, ⟨more, hmore⟩, hnone⟩ | ⟨rfl, more, hmore⟩ := hstops
  · refine ⟨front, back ++ [line.stop], by simp [tokens, hsplit], hviable hmore, ?_⟩
    rintro ⟨other, hother, hend, hfront⟩
    obtain hall | ⟨rest, hrest⟩ := List.prefix_concat_iff.1 hfront
    · obtain ⟨-, htoken⟩ := List.append_inj' hall rfl
      obtain rfl := (List.cons.inj htoken).1
      exact hbody _ (by simp [hsplit]) hend
    · refine hnone rest ?_
      rwa [List.append_cons, hrest]
  · refine ⟨line.body, [], rfl, hviable hmore, ?_⟩
    rintro ⟨other, ⟨statement, hform⟩, hend, hfront⟩
    obtain hall | hinside := List.prefix_concat_iff.1 hfront
    · exact hline ⟨statement, (List.append_inj' hall rfl).1 ▸ hform⟩
    · exact hform.not_endsLine (hinside.subset (by simp)) hstop

/-- A line break or an end of input ends each line. -/
theorem endsLine_of_mem_ofTokens {all : List Token} {line : TokenLine} (hline : line ∈ ofTokens all) :
    line.stop.EndsLine := by
  induction all generalizing line with
  | nil => cases hline
  | cons first rest ih =>
    unfold ofTokens at hline
    split at hline
    · next hkind =>
      rw [List.mem_singleton.1 hline]
      exact .inr hkind
    · next hkind =>
      obtain rfl | hline := List.mem_cons.1 hline
      · exact .inl hkind
      · exact ih hline
    · split at hline
      · cases hline
      · next next lines hrest =>
        obtain rfl | hline := List.mem_cons.1 hline
        · have hnext : next ∈ ofTokens rest := hrest ▸ List.mem_cons_self
          exact (ih hnext : next.stop.EndsLine)
        · exact ih (hrest ▸ List.mem_cons_of_mem _ hline)

/-- A line has no problem exactly if it is empty or makes a statement. -/
theorem problem?_eq_none_iff {line : TokenLine} :
    line.problem? = none ↔ line.body = [] ∨ Makes line.body := by
  obtain ⟨body, stop⟩ := line
  cases body with
  | nil => simp [problem?, outcome?]
  | cons first rest =>
    have hmakes : Makes (first :: rest) ↔ Succeeds (read stop first) rest := makes_cons_iff stop
    cases hread : read stop first rest <;> simp [problem?, outcome?, hmakes, Succeeds, hread]

/-- The problem of a line is with the token that is to blame. -/
theorem offends_of_problem? {line : TokenLine} {problem : Diagnostic}
    (hbody : ∀ token ∈ line.body, ¬ token.EndsLine) (hstop : line.stop.EndsLine)
    (hproblem : line.problem? = some problem) : line.Offends problem.token := by
  have hline : ¬ Makes line.body := fun hmakes => by
    rw [problem?_eq_none_iff.2 (.inr hmakes)] at hproblem
    cases hproblem
  obtain ⟨body, stop⟩ := line
  cases body with
  | nil => cases hproblem
  | cons first rest =>
    have hread : read stop first rest = .error problem := by
      cases hread : read stop first rest <;> simp_all [problem?, outcome?]
    exact ⟨fun keyword htext => read_lacksText htext hread,
      fun htext => (read_stops htext hread).viable hline hbody hstop⟩

end TokenLine

namespace Script

/-- A script that reports the lines of a token list that are neither empty nor make a statement, in
    order and each at the token that is to blame. -/
structure Blames (tokens : List Token) (lines : List TokenLine) (script : Script) : Prop where
  splits : TokenLine.Splits tokens lines
  problems : script.problems = lines.filterMap TokenLine.problem?
  silent : ∀ line ∈ lines, line.problem? = none ↔ line.body = [] ∨ TokenLine.Makes line.body
  offends : ∀ line ∈ lines, ∀ problem ∈ line.problem?, line.Offends problem.token

/-- A token list that ends in the end of the input is read, with every problem at the token that is to
    blame. -/
theorem ofTokens_offending {tokens : List Token}
    (hend : tokens.getLast?.map Token.kind = some .endOfInput)
    (hinvalid : ∀ token ∈ tokens, token.kind = .invalid → token.value ≠ "") :
    ∃ lines script, ofTokens tokens = .ok script ∧ script.Blames tokens lines := by
  have hread := ofTokens_eq_ok hend hinvalid
  rw [ofOutcomes_lines] at hread
  refine ⟨TokenLine.ofTokens tokens, _, hread, TokenLine.splits_ofTokens hend, rfl,
    fun line _ => TokenLine.problem?_eq_none_iff, fun line hline problem hproblem => ?_⟩
  obtain ⟨hbody, -⟩ := TokenLine.mem_of_mem_ofTokens hline
  have hinside : ∀ token ∈ line.body, ¬ token.EndsLine := fun token htoken hends =>
    hends.elim (hbody token htoken).2.1 (hbody token htoken).2.2
  exact TokenLine.offends_of_problem? hinside (TokenLine.endsLine_of_mem_ofTokens hline) hproblem

/-- A title without text, a name without characters behind an arrow, and a signal that the end of its
    line cuts off. -/
theorem ofTokens_offending_cutOff :
    let title : Token := ⟨.keyword .title, "title", 1, 1, 0, 5⟩
    let nameless : Token := ⟨.name, "", 2, 6, 11, 2⟩
    let stop : Token := ⟨.endOfInput, "", 3, 5, 18, 0⟩
    let tokens : List Token := [title, ⟨.lineBreak, "\n", 1, 6, 5, 1⟩, ⟨.name, "A", 2, 1, 6, 1⟩,
      ⟨.arrow, "->", 2, 3, 8, 2⟩, nameless, ⟨.lineBreak, "\n", 2, 8, 13, 1⟩,
      ⟨.name, "A", 3, 1, 14, 1⟩, ⟨.arrow, "->", 3, 3, 16, 2⟩, stop]
    tokens.getLast?.map Token.kind = some .endOfInput ∧
      (∀ token ∈ tokens, token.kind = .invalid → token.value ≠ "") ∧
      ∃ lines script, ofTokens tokens = .ok script ∧ script.Blames tokens lines ∧
        script.problems.map Diagnostic.token = [title, nameless, stop] := by
  intro title nameless stop tokens
  have hend : tokens.getLast?.map Token.kind = some .endOfInput := by decide
  have hinvalid : ∀ token ∈ tokens, token.kind = .invalid → token.value ≠ "" := by decide
  obtain ⟨lines, script, hscript, hblames⟩ := ofTokens_offending hend hinvalid
  have houtcome : (ofTokens tokens).map (·.problems.map Diagnostic.token) =
      .ok [title, nameless, stop] := by
    cbv
  rw [hscript] at houtcome
  exact ⟨hend, hinvalid, lines, script, hscript, hblames, Except.ok.inj houtcome⟩

end Script

end SequenceChart
