import SequenceChart.Proofs.Statement.Lines
import SequenceChart.Proofs.Token.Append

namespace SequenceChart

/-- The statement that holds other tokens in the places of its own. -/
def Statement.mapTokens (f : Token → Token) : Statement → Statement
  | setTitle keyword title => setTitle (f keyword) title
  | declare name label => declare (f name) (label.map f)
  | mention name => mention (f name)
  | signal source arrow target label => signal (f source) (f arrow) (f target) (label.map f)
  | activation keyword name => activation (f keyword) (f name)
  | openFragment keyword label => openFragment (f keyword) (label.map f)
  | nextOperand keyword label => nextOperand (f keyword) (label.map f)
  | closeFragment keyword => closeFragment (f keyword)
  | unknown => unknown

/-- The same problem with another token. -/
def Diagnostic.mapToken (f : Token → Token) (problem : Diagnostic) : Diagnostic :=
  { problem with token := f problem.token }

namespace TokenLine

/-- The line that holds other tokens in the places of its own. -/
def mapTokens (f : Token → Token) (line : TokenLine) : TokenLine :=
  ⟨line.body.map f, f line.stop⟩

def mapOutcome (f : Token → Token) : Except Diagnostic Statement → Except Diagnostic Statement
  | .ok statement => .ok (statement.mapTokens f)
  | .error problem => .error (problem.mapToken f)

/-- A change of tokens that keeps their kinds and values, which is all that is read of them. -/
def Keeps (f : Token → Token) (tokens : List Token) : Prop :=
  ∀ token ∈ tokens, (f token).kind = token.kind ∧ (f token).value = token.value

/-- A change of tokens that keeps what decides how a line is read: the kinds, and the values but for
    tokens without a meaning, of which it only matters whether they start with a quote mark. -/
def Resembles (f : Token → Token) (tokens : List Token) : Prop :=
  ∀ token ∈ tokens, (f token).kind = token.kind ∧
    (token.kind ≠ .invalid → (f token).value = token.value) ∧
    (token.kind = .invalid →
      ((f token).value.toList.head? = some '"' ↔ token.value.toList.head? = some '"'))

variable {f : Token → Token} {stop : Token}

theorem Keeps.resembles {line : List Token} (hkeeps : Keeps f line) : Resembles f line := by
  intro token htoken
  obtain ⟨hkind, hvalue⟩ := hkeeps token htoken
  exact ⟨hkind, fun _ => hvalue, fun _ => by rw [hvalue]⟩

theorem Resembles.tail {token : Token} {line : List Token} (hsame : Resembles f (token :: line)) :
    Resembles f line :=
  fun other hother => hsame other (List.mem_cons_of_mem _ hother)

theorem Resembles.kind {token : Token} {line : List Token} (hsame : Resembles f (token :: line)) :
    (f token).kind = token.kind :=
  (hsame token List.mem_cons_self).1

theorem Resembles.value {token : Token} {line : List Token} (hsame : Resembles f (token :: line))
    (hkind : token.kind ≠ .invalid) : (f token).value = token.value :=
  (hsame token List.mem_cons_self).2.1 hkind

theorem unexpected_map {token : Token} {line : List Token} (hsame : Resembles f (token :: line)) :
    unexpected (f token) = (unexpected token).mapToken f := by
  obtain ⟨hkind, _, hquote⟩ := hsame token List.mem_cons_self
  simp only [unexpected, hkind]
  split
  · next hinvalid =>
    simp only [hquote hinvalid]
    split <;> rfl
  · rfl

theorem finish_map (statement : Statement) (line : List Token) :
    finish (statement.mapTokens f) (line.map f) = mapOutcome f (finish statement line) := by
  cases line <;> rfl

theorem take?_map {line : List Token} (hsame : Resembles f line) (kind : TokenKind) :
    take? kind (line.map f) = ((take? kind line).1.map f, (take? kind line).2.map f) := by
  cases line with
  | nil => rfl
  | cons token line =>
    simp only [take?, List.map_cons, hsame.kind]
    split <;> rfl

theorem takeName_bind_map {line : List Token} (hsame : Resembles f line)
    {next moved : Token × List Token → Except Diagnostic Statement}
    (hnext : ∀ name rest, line = name :: rest →
      moved (f name, rest.map f) = mapOutcome f (next (name, rest))) :
    (takeName (f stop) (line.map f) >>= moved) = mapOutcome f (takeName stop line >>= next) := by
  cases line with
  | nil => rfl
  | cons token rest =>
    have hname : (decide (token.kind = .name) && decide ((f token).value ≠ "")) =
        (decide (token.kind = .name) && decide (token.value ≠ "")) := by
      by_cases hkind : token.kind = .name
      · rw [hsame.value (by simp [hkind])]
      · simp [hkind]
    simp only [takeName, List.map_cons, hsame.kind, hname]
    split
    · exact hnext token rest rfl
    split
    · exact congrArg Except.error (unexpected_map hsame)
    · rfl

theorem finish_take?_map {line : List Token} (hsame : Resembles f line)
    {make moved : Option Token → Statement}
    (hmake : ∀ label, moved (label.map f) = (make label).mapTokens f) :
    finish (moved (take? .text (line.map f)).1) (take? .text (line.map f)).2 =
      mapOutcome f (finish (make (take? .text line).1) (take? .text line).2) := by
  rw [take?_map hsame, hmake, finish_map]

theorem readTitle_map {keyword : Token} {rest : List Token} (hsame : Resembles f rest) :
    readTitle (f keyword) (rest.map f) = mapOutcome f (readTitle keyword rest) := by
  unfold readTitle
  rw [take?_map hsame]
  obtain ⟨text, tail, rfl, htext, htake⟩ | ⟨_, htake⟩ := take?_cases .text rest
  · simp only [htake, Option.map_some, hsame.value (by simp [htext])]
    exact finish_map (.setTitle keyword (some text.value)) tail
  · rw [htake]
    rfl

theorem readParticipant_map {rest : List Token} (hsame : Resembles f rest) :
    readParticipant (f stop) (rest.map f) = mapOutcome f (readParticipant stop rest) := by
  refine takeName_bind_map hsame fun name tail hline => ?_
  subst hline
  simp only [take?_map hsame.tail]
  obtain ⟨as, tail, rfl, _, htake⟩ | ⟨_, htake⟩ := take?_cases (.keyword .label) tail
  · simp only [htake, Option.map_some, take?_map hsame.tail.tail]
    obtain ⟨label, tail, rfl, _, htake⟩ | ⟨_, htake⟩ := take?_cases .text tail
    · simp only [htake, Option.map_some]
      exact finish_map (.declare name (some label)) tail
    · rw [htake]
      rfl
  · simp only [htake, Option.map_none]
    exact finish_map (.declare name none) tail

theorem readTarget_map {source arrow : Token} {rest : List Token} (hsame : Resembles f rest) :
    readTarget (f stop) (f source) (f arrow) (rest.map f) =
      mapOutcome f (readTarget stop source arrow rest) := by
  refine takeName_bind_map hsame fun target tail hline => ?_
  subst hline
  simp only [take?_map hsame.tail]
  obtain ⟨colon, tail, rfl, _, htake⟩ | ⟨_, htake⟩ := take?_cases .colon tail
  · simp only [htake, Option.map_some]
    exact finish_take?_map hsame.tail.tail fun label => rfl
  · cases tail <;> simp only [htake] <;> rfl

theorem readName_map {line : List Token} (hsame : Resembles f line) :
    readName (f stop) (line.map f) = mapOutcome f (readName stop line) := by
  refine takeName_bind_map hsame fun source rest hline => ?_
  subst hline
  cases rest with
  | nil => rfl
  | cons token rest =>
    simp only [List.map_cons, hsame.tail.kind]
    split
    · exact readTarget_map hsame.tail.tail
    · rfl

/-- A line with other tokens has the same outcome with other tokens in it, as long as the tokens of
    its body resemble the old ones. The token that ends the line may change altogether. -/
theorem read_map {first : Token} {rest : List Token} (hsame : Resembles f (first :: rest)) :
    read (f stop) (f first) (rest.map f) = mapOutcome f (read stop first rest) := by
  have hactivation : (takeName (f stop) (rest.map f) >>= fun taken =>
        finish (.activation (f first) taken.1) taken.2) =
      mapOutcome f (takeName stop rest >>= fun taken => finish (.activation first taken.1) taken.2) :=
    takeName_bind_map hsame.tail fun name tail _ => finish_map (.activation first name) tail
  unfold read
  rw [hsame.kind]
  split
  · exact readTitle_map hsame.tail
  · exact readParticipant_map hsame.tail
  · exact readName_map hsame
  · exact hactivation
  · exact hactivation
  · exact finish_take?_map hsame.tail fun label => rfl
  · exact finish_take?_map hsame.tail fun label => rfl
  · exact finish_take?_map hsame.tail fun label => rfl
  · exact finish_map (.closeFragment first) rest
  · exact congrArg Except.error (unexpected_map hsame)

theorem statement?_map {line : TokenLine} (hkeeps : Keeps f line.body) :
    (line.mapTokens f).statement? = line.statement?.map (Statement.mapTokens f) := by
  obtain ⟨body, stop⟩ := line
  cases body with
  | nil => rfl
  | cons first rest =>
    have hread := @read_map f stop first rest hkeeps.resembles
    simp only [statement?, outcome?, mapTokens, List.map_cons, hread]
    cases read stop first rest <;> rfl

theorem problem?_map {line : TokenLine} (hkeeps : Keeps f line.body) :
    (line.mapTokens f).problem? = line.problem?.map (Diagnostic.mapToken f) := by
  obtain ⟨body, stop⟩ := line
  cases body with
  | nil => rfl
  | cons first rest =>
    have hread := @read_map f stop first rest hkeeps.resembles
    simp only [problem?, outcome?, mapTokens, List.map_cons, hread]
    cases read stop first rest <;> rfl

/-- Whether a line makes a statement, and which, does not depend on the token that ends it. -/
theorem statement?_congr {line other : TokenLine} (hbody : line.body = other.body) :
    line.statement? = other.statement? := by
  obtain ⟨body, stop⟩ := line
  obtain ⟨body, last⟩ := other
  obtain rfl := hbody
  cases body with
  | nil => rfl
  | cons first rest =>
    have hother (statement : Statement) :
        read stop first rest = .ok statement ↔ read last first rest = .ok statement :=
      read_eq_ok_iff.trans read_eq_ok_iff.symm
    simp only [statement?, outcome?]
    cases hstop : read stop first rest with
    | ok statement => rw [(hother statement).1 hstop]
    | error problem =>
      cases hlast : read last first rest with
      | ok statement =>
        rw [(hother statement).2 hlast] at hstop
        cases hstop
      | error other => rfl

theorem filterMap_statement?_map {lines : List TokenLine}
    (hkeeps : ∀ line ∈ lines, Keeps f line.body) :
    (lines.map (mapTokens f)).filterMap statement? =
      (lines.filterMap statement?).map (Statement.mapTokens f) := by
  rw [List.filterMap_map, List.map_filterMap]
  exact List.filterMap_congr fun line hline => statement?_map (hkeeps line hline)

theorem filterMap_problem?_map {lines : List TokenLine}
    (hkeeps : ∀ line ∈ lines, Keeps f line.body) :
    (lines.map (mapTokens f)).filterMap problem? =
      (lines.filterMap problem?).map (Diagnostic.mapToken f) := by
  rw [List.filterMap_map, List.map_filterMap]
  exact List.filterMap_congr fun line hline => problem?_map (hkeeps line hline)

theorem ofTokens_map {all : List Token} (hkind : ∀ token ∈ all, (f token).kind = token.kind) :
    ofTokens (all.map f) = (ofTokens all).map (mapTokens f) := by
  induction all with
  | nil => rfl
  | cons token rest ih =>
    obtain ⟨hfirst, hrest⟩ := List.forall_mem_cons.1 hkind
    simp only [List.map_cons, ofTokens, hfirst, ih hrest]
    split
    · rfl
    · rfl
    · cases ofTokens rest <;> rfl

end TokenLine

end SequenceChart
