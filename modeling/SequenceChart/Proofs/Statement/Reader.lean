import Mathlib.Logic.Function.Iterate
import SequenceChart.Proofs.Statement.Offending

namespace SequenceChart.Reader

/-- A number of passes. -/
def passes (n : Nat) (reader : Reader) : Except Halt Reader :=
  (· >>= pass)^[n] (.ok reader)

/-- Whether the loop ends here. -/
def AtEnd (reader : Reader) : Prop :=
  reader.rest.head?.map Token.kind = some .endOfInput

/-- Tokens are read between two states, one at least and no end of the input. -/
def Advances (reader later : Reader) : Prop :=
  ∃ front, front ≠ [] ∧ reader.rest = front ++ later.rest ∧
    ∀ token ∈ front, token.kind ≠ .endOfInput

/-- What is left of a line in front of the token that ends it. -/
structure OnLine (body : List Token) (stop : Token) : Prop where
  inside : ∀ token ∈ body, ¬ token.EndsLine
  filled : ∀ token ∈ body, token.kind = .invalid → token.value ≠ ""
  ended : stop.EndsLine

theorem OnLine.suffix {body rest : List Token} {stop : Token} (hline : OnLine body stop)
    (hrest : rest <:+ body) : OnLine rest stop :=
  ⟨fun token htoken => hline.inside token (hrest.mem htoken),
    fun token htoken => hline.filled token (hrest.mem htoken), hline.ended⟩

theorem OnLine.tail {token stop : Token} {rest : List Token} (hline : OnLine (token :: rest) stop) :
    OnLine rest stop :=
  hline.suffix (List.suffix_cons _ _)

/-- A rule reads what is left of a line as an outcome says. It stops at the end of the line with its
    statement, or somewhere on the line with its problem. -/
def ReadsAs (rule : Rule Statement) (stop : Token) (after body : List Token) :
    Except Diagnostic Statement → Prop
  | .ok statement => rule (body ++ stop :: after) = .ok statement (stop :: after)
  | .error problem => ∃ rest, rest <:+ body ∧
      rule (body ++ stop :: after) = .error (.problem problem) (rest ++ stop :: after)

section Rules

open TokenLine

variable {α : Type} {stop : Token} {body rest after : List Token}
  {outcome : Except Diagnostic Statement}

theorem ReadsAs.bind {rule : Rule α} {next : α → Rule Statement} {value : α}
    (hrule : rule (body ++ stop :: after) = .ok value (rest ++ stop :: after)) (hrest : rest <:+ body)
    (hnext : ReadsAs (next value) stop after rest outcome) :
    ReadsAs (rule >>= next) stop after body outcome := by
  have hbind : (rule >>= next) (body ++ stop :: after) = next value (rest ++ stop :: after) := by
    change EStateM.bind rule next _ = _
    rw [EStateM.bind, hrule]
  cases outcome with
  | ok statement => exact hbind.trans hnext
  | error problem =>
    obtain ⟨left, hleft, hhalt⟩ := hnext
    exact ⟨left, hleft.trans hrest, hbind.trans hhalt⟩

theorem ReadsAs.halt (problem : Diagnostic) :
    ReadsAs (throw (.problem problem)) stop after body (.error problem) :=
  ⟨body, List.suffix_refl body, rfl⟩

theorem ReadsAs.halt_bind (problem : Diagnostic) (next : α → Rule Statement) :
    ReadsAs (throw (.problem problem) >>= next) stop after body (.error problem) :=
  ⟨body, List.suffix_refl body, rfl⟩

/-- A token that no rule expects has a first character to tell of. -/
theorem refuse_eq {token : Token} (hline : OnLine (token :: rest) stop) :
    (refuse token : Rule α) = throw (.problem (unexpected token)) := by
  have hcharacter : Script.lacksCharacter (unexpected token) = false := by
    have hfilled := hline.filled token List.mem_cons_self
    unfold Script.lacksCharacter unexpected
    grind
  simp only [refuse, hcharacter, Bool.false_eq_true, if_false]

/-- The token at the position is the next one of the line, or the one that ends it. -/
theorem ReadsAs.current {next : Token → Rule Statement}
    (hend : body = [] → ReadsAs (next stop) stop after [] outcome)
    (hcons : ∀ token rest, body = token :: rest →
      ReadsAs (next token) stop after (token :: rest) outcome) :
    ReadsAs (current >>= next) stop after body outcome := by
  cases body with
  | nil => exact .bind rfl (List.suffix_refl _) (hend rfl)
  | cons token rest => exact .bind rfl (List.suffix_refl _) (hcons token rest rfl)

/-- A rule that asks whether the line ends here is told so where it does. -/
theorem ReadsAs.endsLine {next other : Token → Rule Statement} (hline : OnLine body stop)
    (hend : body = [] → ReadsAs (next stop) stop after [] outcome)
    (hcons : ∀ token rest, body = token :: rest →
      ReadsAs (other token) stop after (token :: rest) outcome) :
    ReadsAs (Reader.current >>= fun token => if token.EndsLine then next token else other token)
      stop after body outcome := by
  refine .current (fun hbody => ?_) fun token rest hbody => ?_
  · rw [if_pos hline.ended]
    exact hend hbody
  · subst hbody
    rw [if_neg (hline.inside token List.mem_cons_self)]
    exact hcons token rest rfl

theorem ReadsAs.advance {next : Token → Rule Statement} {token : Token}
    (hline : OnLine (token :: rest) stop) (hnext : ReadsAs (next token) stop after rest outcome) :
    ReadsAs (advance >>= next) stop after (token :: rest) outcome := by
  refine .bind ?_ (List.suffix_cons _ _) hnext
  have hend : token.kind ≠ .endOfInput := fun hend => hline.inside token List.mem_cons_self (.inr hend)
  simp only [Reader.advance, List.cons_append, if_neg hend]

theorem accept_cons (kind : TokenKind) (token : Token) (rest : List Token) :
    accept kind (token :: rest) =
      if token.kind = kind then .ok (some token) (if token.kind = .endOfInput then token :: rest else rest)
      else .ok none (token :: rest) := by
  change (if token.kind = kind then some <$> advance else return none) (token :: rest) = _
  split
  · rfl
  · rfl

/-- A kind that ends no line is accepted on the line or not at all. -/
theorem ReadsAs.accept {kind : TokenKind} {next : Option Token → Rule Statement}
    (hkind : kind ≠ .lineBreak ∧ kind ≠ .endOfInput) (hline : OnLine body stop)
    (hnext : ∀ taken rest, take? kind body = (taken, rest) → OnLine rest stop →
      ReadsAs (next taken) stop after rest outcome) :
    ReadsAs (accept kind >>= next) stop after body outcome := by
  obtain ⟨token, rest, rfl, htoken, htake⟩ | ⟨hother, htake⟩ := take?_cases kind body
  · refine .bind ?_ (List.suffix_cons _ _) (hnext _ _ htake hline.tail)
    have hend : token.kind ≠ .endOfInput := fun hend => hkind.2 (htoken.symm.trans hend)
    rw [List.cons_append, accept_cons, if_pos htoken, if_neg hend]
  · refine .bind ?_ (List.suffix_refl _) (hnext _ _ htake hline)
    cases body with
    | nil =>
      have hstop : stop.kind ≠ kind := by
        rintro rfl
        exact hline.ended.elim hkind.1 hkind.2
      rw [List.nil_append, accept_cons, if_neg hstop]
    | cons token rest => rw [List.cons_append, accept_cons, if_neg (hother token rest rfl)]

/-- What follows a name goes on behind it. -/
theorem ReadsAs.expectName {next : Token → Rule Statement}
    {follow : Token × List Token → Except Diagnostic Statement} (hline : OnLine body stop)
    (hnext : ∀ name rest, OnLine rest stop → ReadsAs (next name) stop after rest (follow (name, rest))) :
    ReadsAs (expectName >>= next) stop after body (takeName stop body >>= follow) := by
  rw [Reader.expectName, bind_assoc]
  refine .current (fun hbody => ?_) fun token rest hbody => ?_
  · have hstop : stop.kind ≠ .name ∧ stop.kind ≠ .invalid := by
      obtain hended | hended := hline.ended <;> simp [hended]
    simp only [hbody, hstop.1, hstop.2, decide_false, Bool.false_and, Bool.false_eq_true, if_false]
    exact .halt_bind _ _
  · subst hbody
    rw [takeName]
    split
    · exact .advance hline (hnext token rest hline.tail)
    split
    · rw [refuse_eq hline]
      exact .halt_bind _ _
    · exact .halt_bind _ _

/-- A line is finished where it ends. -/
theorem ReadsAs.finish (hline : OnLine body stop) (statement : Statement) :
    ReadsAs (finish statement) stop after body (TokenLine.finish statement body) := by
  refine .endsLine hline (fun hbody => ?_) fun token rest hbody => ?_
  · rw [hbody]
    rfl
  · rw [hbody]
    exact .halt _

theorem ReadsAs.finishText (hline : OnLine body stop) (make : Option Token → Statement) :
    ReadsAs (finishText make) stop after body (TokenLine.finishText make body) := by
  refine .accept (by decide) hline fun label rest htake hrest => ?_
  rw [TokenLine.finishText, htake]
  exact .finish hrest _

theorem ReadsAs.titleLine {keyword : Token} (hline : OnLine (keyword :: rest) stop) :
    ReadsAs titleLine stop after (keyword :: rest) (readTitle keyword rest) := by
  refine .advance hline (.accept (by decide) hline.tail fun text left htake hleft => ?_)
  rw [readTitle, htake]
  cases text with
  | none => exact .halt _
  | some text => exact .finish hleft _

theorem ReadsAs.participantLine {keyword : Token} (hline : OnLine (keyword :: rest) stop) :
    ReadsAs participantLine stop after (keyword :: rest) (readParticipant stop rest) := by
  refine .advance hline (.expectName hline.tail fun name rest hrest => ?_)
  refine .accept (by decide) hrest fun keyword rest htake hrest => ?_
  simp only [htake]
  cases keyword with
  | none => exact .finish hrest _
  | some keyword =>
    refine .accept (by decide) hrest fun label rest htake hrest => ?_
    simp only [htake]
    cases label with
    | none => exact .halt _
    | some label => exact .finish hrest _

theorem ReadsAs.activationLine {keyword : Token} (hline : OnLine (keyword :: rest) stop) :
    ReadsAs activationLine stop after (keyword :: rest)
      (takeName stop rest >>= fun taken => TokenLine.finish (.activation keyword taken.1) taken.2) :=
  .advance hline (.expectName hline.tail fun _ _ hrest => .finish hrest _)

theorem ReadsAs.targetEnd (hline : OnLine body stop) (source arrow : Token) :
    ReadsAs (targetEnd source arrow) stop after body (readTarget stop source arrow body) := by
  refine .expectName hline fun target rest hrest => ?_
  refine .accept (by decide) hrest fun colon rest htake hrest => ?_
  simp only [htake]
  cases colon with
  | some colon => exact .finishText hrest _
  | none =>
    refine .endsLine hrest (fun hbody => ?_) fun token left hbody => ?_
    · subst hbody
      exact .finish hrest _
    · subst hbody
      exact .halt _

theorem ReadsAs.nameLine (hline : OnLine body stop) :
    ReadsAs nameLine stop after body (readName stop body) := by
  refine .expectName hline fun source rest hrest => ?_
  refine .endsLine hrest (fun hbody => ?_) fun token left hbody => ?_
  · subst hbody
    rfl
  · subst hbody
    refine .accept (by decide) hrest fun arrow rest htake hrest => ?_
    by_cases harrow : token.kind = .arrow
    · obtain ⟨rfl, rfl⟩ : some token = arrow ∧ left = rest := by simpa [take?, harrow] using htake
      simp only [harrow, if_true]
      exact .targetEnd hrest source token
    · obtain ⟨rfl, rfl⟩ : none = arrow ∧ token :: left = rest := by simpa [take?, harrow] using htake
      simp only [harrow, if_false]
      exact .halt _

theorem ReadsAs.labelLine {keyword : Token} (hline : OnLine (keyword :: rest) stop)
    (make : Token → Option Token → Statement) :
    ReadsAs (labelLine make) stop after (keyword :: rest) (TokenLine.finishText (make keyword) rest) :=
  .advance hline (.finishText hline.tail _)

theorem ReadsAs.closeLine {keyword : Token} (hline : OnLine (keyword :: rest) stop) :
    ReadsAs closeLine stop after (keyword :: rest) (TokenLine.finish (.closeFragment keyword) rest) :=
  .advance hline (.finish hline.tail _)

/-- A line is read by the rule that its first token asks for. -/
theorem ReadsAs.parseLine {first : Token} (hline : OnLine (first :: rest) stop) :
    ReadsAs parseLine stop after (first :: rest) (TokenLine.read stop first rest) := by
  refine .bind rfl (List.suffix_refl _) ?_
  unfold TokenLine.read
  have hrefuse : ReadsAs (refuse first) stop after (first :: rest) (.error (unexpected first)) := by
    rw [refuse_eq hline]
    exact .halt _
  generalize first.kind = kind
  cases kind with
  | name => exact .nameLine hline
  | keyword word =>
    cases word with
    | title => exact .titleLine hline
    | participant => exact .participantLine hline
    | activate => exact .activationLine hline
    | deactivate => exact .activationLine hline
    | fragment kind => exact .labelLine hline _
    | elseOperand => exact .labelLine hline _
    | andOperand => exact .labelLine hline _
    | close => exact .closeLine hline
    | label => exact hrefuse
  | _ => exact hrefuse

end Rules

end SequenceChart.Reader
