import SequenceChart.Proofs.Statement.Grammar

namespace SequenceChart

namespace TokenLine

/-- Whether a reader makes a statement of the rest of a line. -/
def Succeeds (reader : List Token → Except Diagnostic Statement) (rest : List Token) : Prop :=
  ∃ statement, reader rest = .ok statement

/-- Where the rest of a line stops being like one that is accepted: at its first token such that
    nothing accepted begins with the tokens up to it, or behind all of them. -/
def Stops (accepts : List Token → Prop) (stop : Token) (rest : List Token) (token : Token) : Prop :=
  (∃ front back, rest = front ++ token :: back ∧ (∃ more, accepts (front ++ more)) ∧
      ∀ more, ¬ accepts (front ++ token :: more)) ∨
    token = stop ∧ ∃ more, accepts (rest ++ more)

section Stops

variable {accepts follows : List Token → Prop} {stop token : Token} {rest : List Token}

/-- The rest of a line stops at its first token if nothing accepted begins with it. -/
theorem Stops.here (hsome : ∃ more, accepts more) (hnone : ∀ more, ¬ accepts (token :: more)) :
    Stops accepts stop (token :: rest) token :=
  .inl ⟨[], rest, rfl, hsome, hnone⟩

/-- A token that is read leaves it to what follows where the line stops. -/
theorem Stops.cons {first : Token} (hstops : Stops follows stop rest token)
    (hfirst : ∀ rest, accepts (first :: rest) ↔ follows rest) :
    Stops accepts stop (first :: rest) token := by
  obtain ⟨front, back, rfl, ⟨more, hmore⟩, hnone⟩ | ⟨rfl, more, hmore⟩ := hstops
  · exact .inl ⟨first :: front, back, rfl, ⟨more, (hfirst _).2 hmore⟩,
      fun more hmore => hnone more ((hfirst _).1 hmore)⟩
  · exact .inr ⟨rfl, more, (hfirst _).2 hmore⟩

end Stops

theorem not_succeeds_of_error {reader : List Token → Except Diagnostic Statement} {rest : List Token}
    {problem : Diagnostic} (hread : reader rest = .error problem) : ¬ Succeeds reader rest := by
  rintro ⟨statement, hmore⟩
  rw [hread] at hmore
  cases hmore

theorem finish_stops {statement : Statement} {rest : List Token} {problem : Diagnostic}
    (stop : Token) (hread : finish statement rest = .error problem) :
    Stops (Succeeds (finish statement)) stop rest problem.token := by
  cases rest with
  | nil => cases hread
  | cons token rest =>
    cases hread
    exact .here ⟨[], _, rfl⟩ fun more => not_succeeds_of_error rfl

/-- The end of a line that may have a text. -/
def finishText (make : Option Token → Statement) (rest : List Token) : Except Diagnostic Statement :=
  finish (make (take? .text rest).1) (take? .text rest).2

theorem finishText_stops {make : Option Token → Statement} {rest : List Token}
    {problem : Diagnostic} (stop : Token) (hread : finishText make rest = .error problem) :
    Stops (Succeeds (finishText make)) stop rest problem.token := by
  obtain ⟨text, tail, rfl, htext, -⟩ | ⟨hother, htake⟩ := take?_cases .text rest
  · have hfinish (tail : List Token) :
        finishText make (text :: tail) = finish (make (some text)) tail := by
      simp only [finishText, take?, htext, if_true]
    rw [hfinish] at hread
    exact (finish_stops stop hread).cons fun rest => by rw [Succeeds, hfinish]; rfl
  · rw [finishText, htake] at hread
    cases rest with
    | nil => cases hread
    | cons token rest =>
      cases hread
      have hrefused (more : List Token) :
          finishText make (token :: more) = .error ⟨token, .endExpected⟩ := by
        rw [finishText, take?, if_neg (hother token rest rfl)]
        rfl
      exact .here ⟨[], _, rfl⟩ fun more => not_succeeds_of_error (hrefused more)

theorem unexpected_token (token : Token) : (unexpected token).token = token := by
  unfold unexpected
  split
  · split <;> rfl
  · rfl

/-- A missing name is missed at the token in its place. -/
theorem takeName_error {stop : Token} {rest : List Token} {problem : Diagnostic}
    (hread : takeName stop rest = .error problem) :
    rest = [] ∧ problem.token = stop ∨ ∃ tail, rest = problem.token :: tail := by
  cases rest with
  | nil =>
    cases hread
    exact .inl ⟨rfl, rfl⟩
  | cons token rest =>
    simp only [takeName] at hread
    split at hread
    · cases hread
    split at hread
    · cases hread
      exact .inr ⟨rest, by rw [unexpected_token]⟩
    · cases hread
      exact .inr ⟨rest, rfl⟩

/-- A reader that first takes a name stops at what is no name, or where the next reader does. -/
theorem takeName_bind_stops {stop : Token} {rest : List Token} {problem : Diagnostic}
    (next : Token × List Token → Except Diagnostic Statement)
    (hsome : ∃ name more, name.IsName ∧ Succeeds (fun rest => next (name, rest)) more)
    (hnext : ∀ name tail, rest = name :: tail → name.IsName → next (name, tail) = .error problem →
      Stops (Succeeds fun rest => next (name, rest)) stop tail problem.token)
    (hread : (takeName stop rest >>= next) = .error problem) :
    Stops (Succeeds fun rest => takeName stop rest >>= next) stop rest problem.token := by
  have hbind {name : Token} (hname : name.IsName) (tail : List Token) :
      (takeName stop (name :: tail) >>= next) = next (name, tail) := by
    rw [takeName_eq_ok_iff.2 ⟨rfl, hname⟩]
    rfl
  obtain ⟨name, more, hname, statement, hmore⟩ := hsome
  have hmore : Succeeds (fun rest => takeName stop rest >>= next) (name :: more) :=
    ⟨statement, (hbind hname more).trans hmore⟩
  cases htaken : takeName stop rest with
  | error other =>
    have hother : other = problem := by
      rw [htaken] at hread
      exact Except.error.inj hread
    subst hother
    obtain ⟨rfl, hstop⟩ | ⟨tail, hrest⟩ := takeName_error htaken
    · exact .inr ⟨hstop, _, hmore⟩
    · rw [hrest]
      refine .here ⟨_, hmore⟩ fun more hmore => ?_
      obtain ⟨statement, hmore⟩ := hmore
      obtain ⟨⟨own, tail⟩, htaken', -⟩ := bind_eq_ok_iff.1 hmore
      obtain ⟨hline, hown⟩ := takeName_eq_ok_iff.1 htaken'
      obtain ⟨rfl, -⟩ := List.cons.inj hline
      rw [hrest, takeName_eq_ok_iff.2 ⟨rfl, hown⟩] at htaken
      cases htaken
  | ok taken =>
    obtain ⟨own, tail⟩ := taken
    obtain ⟨rfl, hown⟩ := takeName_eq_ok_iff.1 htaken
    rw [hbind hown] at hread
    exact (hnext own tail rfl hown hread).cons fun rest => by rw [Succeeds, hbind hown]; rfl

theorem readTitle_stops {stop keyword : Token} {rest : List Token} {problem : Diagnostic}
    (htext : ∃ text ∈ rest.head?, text.kind = .text)
    (hread : readTitle keyword rest = .error problem) :
    Stops (Succeeds (readTitle keyword)) stop rest problem.token := by
  obtain ⟨text, hhead, htext⟩ := htext
  obtain ⟨tail, rfl⟩ := List.head?_eq_some_iff.1 hhead
  have hfinish (tail : List Token) :
      readTitle keyword (text :: tail) = finish (.setTitle keyword (some text.value)) tail := by
    simp only [readTitle, take?, htext, if_true]
  rw [hfinish] at hread
  exact (finish_stops stop hread).cons fun rest => by rw [Succeeds, hfinish]; rfl

/-- The reader of what follows the name of a declared participant. -/
def readLabel (name : Token) (rest : List Token) : Except Diagnostic Statement :=
  match take? (.keyword .label) rest with
  | (some keyword, rest) =>
    match take? .text rest with
    | (some label, rest) => finish (.declare name (some label)) rest
    | (none, _) => .error ⟨keyword, .labelMissing⟩
  | (none, rest) => finish (.declare name none) rest

theorem readLabel_stops {stop name : Token} {rest : List Token} {problem : Diagnostic}
    (htext : ∀ as tail, rest = as :: tail → as.kind = .keyword .label →
      ∃ text ∈ tail.head?, text.kind = .text)
    (hread : readLabel name rest = .error problem) :
    Stops (Succeeds (readLabel name)) stop rest problem.token := by
  obtain ⟨as, tail, rfl, has, -⟩ | ⟨hother, htake⟩ := take?_cases (.keyword .label) rest
  · obtain ⟨text, hhead, hkind⟩ := htext as tail rfl has
    obtain ⟨tail, rfl⟩ := List.head?_eq_some_iff.1 hhead
    have hfinish (tail : List Token) :
        readLabel name (as :: text :: tail) = finish (.declare name (some text)) tail := by
      simp only [readLabel, take?, has, hkind, if_true]
    rw [hfinish] at hread
    have hlabel : Stops (fun rest => Succeeds (readLabel name) (as :: rest)) stop (text :: tail)
        problem.token :=
      (finish_stops stop hread).cons fun rest => by rw [Succeeds, hfinish]; rfl
    exact hlabel.cons fun _ => Iff.rfl
  · rw [readLabel, htake] at hread
    cases rest with
    | nil => cases hread
    | cons token rest =>
      cases hread
      have hrefused (more : List Token) :
          readLabel name (token :: more) = .error ⟨token, .endExpected⟩ := by
        rw [readLabel, take?, if_neg (hother token rest rfl)]
        rfl
      exact .here ⟨[], _, rfl⟩ fun more => not_succeeds_of_error (hrefused more)

theorem readParticipant_stops {stop : Token} {rest : List Token} {problem : Diagnostic}
    (htext : ∀ name as tail, rest = name :: as :: tail → name.IsName → as.kind = .keyword .label →
      ∃ text ∈ tail.head?, text.kind = .text)
    (hread : readParticipant stop rest = .error problem) :
    Stops (Succeeds (readParticipant stop)) stop rest problem.token := by
  refine takeName_bind_stops (fun taken => readLabel taken.1 taken.2)
    ⟨⟨.name, "A", 1, 1, 0, 1⟩, [], by simp [Token.IsName], _, rfl⟩
    (fun name tail hrest hname => ?_) hread
  exact readLabel_stops fun as after htail => htext name as after (htail ▸ hrest) hname

/-- The reader of what follows the target of a signal. -/
def readColon (source arrow target : Token) (rest : List Token) : Except Diagnostic Statement :=
  match take? .colon rest with
  | (some _, rest) => finishText (.signal source arrow target) rest
  | (none, []) => .ok (.signal source arrow target none)
  | (none, token :: _) => .error ⟨token, .colonExpected⟩

theorem readColon_stops {stop source arrow target : Token} {rest : List Token}
    {problem : Diagnostic} (hread : readColon source arrow target rest = .error problem) :
    Stops (Succeeds (readColon source arrow target)) stop rest problem.token := by
  obtain ⟨colon, tail, rfl, hcolon, -⟩ | ⟨hother, htake⟩ := take?_cases .colon rest
  · have hfinish (tail : List Token) : readColon source arrow target (colon :: tail) =
        finishText (.signal source arrow target) tail := by
      simp only [readColon, take?, hcolon, if_true]
    rw [hfinish] at hread
    exact (finishText_stops stop hread).cons fun rest => by rw [Succeeds, hfinish]; rfl
  · rw [readColon, htake] at hread
    cases rest with
    | nil => cases hread
    | cons token rest =>
      cases hread
      have hrefused (more : List Token) :
          readColon source arrow target (token :: more) = .error ⟨token, .colonExpected⟩ := by
        rw [readColon, take?, if_neg (hother token rest rfl)]
      exact .here ⟨[], _, rfl⟩ fun more => not_succeeds_of_error (hrefused more)

theorem readTarget_stops {stop source arrow : Token} {rest : List Token} {problem : Diagnostic}
    (hread : readTarget stop source arrow rest = .error problem) :
    Stops (Succeeds (readTarget stop source arrow)) stop rest problem.token :=
  takeName_bind_stops (fun taken => readColon source arrow taken.1 taken.2)
    ⟨⟨.name, "B", 1, 6, 5, 1⟩, [], by simp [Token.IsName], _, rfl⟩
    (fun _ _ _ _ => readColon_stops) hread

/-- The reader of what follows the name at the start of a line. -/
def readArrow (stop source : Token) : List Token → Except Diagnostic Statement
  | [] => .ok (.mention source)
  | token :: rest =>
    if token.kind = .arrow then readTarget stop source token rest
    else .error ⟨token, .arrowExpected⟩

theorem readArrow_stops {stop source : Token} {rest : List Token} {problem : Diagnostic}
    (hread : readArrow stop source rest = .error problem) :
    Stops (Succeeds (readArrow stop source)) stop rest problem.token := by
  cases rest with
  | nil => cases hread
  | cons token rest =>
    by_cases harrow : token.kind = .arrow
    · have htarget (rest : List Token) :
          readArrow stop source (token :: rest) = readTarget stop source token rest := if_pos harrow
      rw [htarget] at hread
      exact (readTarget_stops hread).cons fun rest => by rw [Succeeds, htarget]; rfl
    · rw [readArrow, if_neg harrow] at hread
      cases hread
      exact .here ⟨[], _, rfl⟩ fun more => not_succeeds_of_error (if_neg harrow)

theorem readName_eq {stop source : Token} (hsource : source.IsName) (rest : List Token) :
    readName stop (source :: rest) = readArrow stop source rest := by
  rw [readName, takeName_eq_ok_iff.2 ⟨rfl, hsource⟩]
  rfl

end TokenLine

end SequenceChart
