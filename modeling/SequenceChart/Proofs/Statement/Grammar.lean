import Mathlib.Data.List.Forall2
import SequenceChart.Statement.OfTokens

namespace SequenceChart

theorem bind_eq_ok_iff {E A B : Type} {x : Except E A} {f : A → Except E B} {b : B} :
    (x >>= f) = .ok b ↔ ∃ a, x = .ok a ∧ f a = .ok b := by
  cases x <;> simp [bind, Except.bind]

theorem map_eq_ok_iff {E A B : Type} {x : Except E A} {f : A → B} {b : B} :
    x.map f = .ok b ↔ ∃ a, x = .ok a ∧ f a = b := by
  cases x <;> simp [Except.map]

/-- A token that may name a participant. -/
def Token.IsName (token : Token) : Prop :=
  token.kind = .name ∧ token.value ≠ ""

namespace TokenLine

/-- The forms of a line, each with the statement that it makes. The statement holds the very tokens
    of the line, except that a title is only the value of its text. -/
inductive Form : List Token → Statement → Prop where
  | title {keyword text : Token} (hkeyword : keyword.kind = .keyword .title)
      (htext : text.kind = .text) : Form [keyword, text] (.setTitle keyword (some text.value))
  | declare {keyword name : Token} (hkeyword : keyword.kind = .keyword .participant)
      (hname : name.IsName) : Form [keyword, name] (.declare name none)
  | declareAs {keyword name as label : Token} (hkeyword : keyword.kind = .keyword .participant)
      (hname : name.IsName) (has : as.kind = .keyword .label) (hlabel : label.kind = .text) :
      Form [keyword, name, as, label] (.declare name (some label))
  | mention {name : Token} (hname : name.IsName) : Form [name] (.mention name)
  | signal {source arrow target : Token} (hsource : source.IsName) (harrow : arrow.kind = .arrow)
      (htarget : target.IsName) : Form [source, arrow, target] (.signal source arrow target none)
  | labelledSignal {source arrow target colon : Token} {label : Option Token}
      (hsource : source.IsName) (harrow : arrow.kind = .arrow) (htarget : target.IsName)
      (hcolon : colon.kind = .colon) (hlabel : ∀ text ∈ label, text.kind = .text) :
      Form (source :: arrow :: target :: colon :: label.toList) (.signal source arrow target label)
  | activation {keyword name : Token}
      (hkeyword : keyword.kind = .keyword .activate ∨ keyword.kind = .keyword .deactivate)
      (hname : name.IsName) : Form [keyword, name] (.activation keyword name)
  | openFragment {keyword : Token} {kind : FragmentKind} {label : Option Token}
      (hkeyword : keyword.kind = .keyword (.fragment kind))
      (hlabel : ∀ text ∈ label, text.kind = .text) :
      Form (keyword :: label.toList) (.openFragment keyword label)
  | nextOperand {keyword : Token} {label : Option Token}
      (hkeyword : keyword.kind = .keyword .elseOperand ∨ keyword.kind = .keyword .andOperand)
      (hlabel : ∀ text ∈ label, text.kind = .text) :
      Form (keyword :: label.toList) (.nextOperand keyword label)
  | closeFragment {keyword : Token} (hkeyword : keyword.kind = .keyword .close) :
      Form [keyword] (.closeFragment keyword)

theorem finish_eq_ok_iff {statement found : Statement} {rest : List Token} :
    finish statement rest = .ok found ↔ rest = [] ∧ found = statement := by
  cases rest with
  | nil => simp [finish, eq_comm]
  | cons token rest => simp [finish]

theorem takeName_eq_ok_iff {stop name : Token} {line rest : List Token} :
    takeName stop line = .ok (name, rest) ↔ line = name :: rest ∧ name.IsName := by
  cases line with
  | nil => simp [takeName]
  | cons token line =>
    by_cases hname : token.IsName
    · have hbool : (token.kind = .name && token.value ≠ "") = true := by simpa [Token.IsName] using hname
      simp only [takeName, hbool, if_true, Except.ok.injEq, Prod.mk.injEq, List.cons.injEq]
      constructor
      · rintro ⟨rfl, rfl⟩
        exact ⟨⟨rfl, rfl⟩, hname⟩
      · rintro ⟨hline, _⟩
        exact hline
    · have hbool : (token.kind = .name && token.value ≠ "") = false := by
        simpa [Token.IsName] using hname
      simp only [takeName, hbool, Bool.false_eq_true, if_false, List.cons.injEq]
      constructor
      · intro h
        split at h <;> cases h
      · rintro ⟨⟨rfl, _⟩, h⟩
        exact absurd h hname

/-- What is taken off the front of a line is of the kind asked for, and if nothing is taken, then
    nothing of the kind stands there. -/
theorem take?_cases (kind : TokenKind) (line : List Token) :
    (∃ token rest, line = token :: rest ∧ token.kind = kind ∧ take? kind line = (some token, rest)) ∨
      (∀ token rest, line = token :: rest → token.kind ≠ kind) ∧ take? kind line = (none, line) := by
  cases line with
  | nil => exact .inr ⟨by simp, rfl⟩
  | cons token rest =>
    by_cases hkind : token.kind = kind
    · exact .inl ⟨token, rest, rfl, hkind, by simp [take?, hkind]⟩
    · refine .inr ⟨?_, by simp [take?, hkind]⟩
      rintro other tail hline
      cases hline
      exact hkind

/-- A line that may end in a text is read to its end, whatever statement the text goes into. -/
theorem finish_take?_eq_ok_iff (make : Option Token → Statement) {line : List Token}
    {found : Statement} :
    finish (make (take? .text line).1) (take? .text line).2 = .ok found ↔
      ∃ label : Option Token, (∀ text ∈ label, text.kind = .text) ∧ line = label.toList ∧
        found = make label := by
  rw [finish_eq_ok_iff]
  obtain ⟨token, rest, rfl, hkind, htake⟩ | ⟨hother, htake⟩ := take?_cases .text line
  · rw [htake]
    constructor
    · rintro ⟨rfl, rfl⟩
      exact ⟨some token, by simpa using hkind, rfl, rfl⟩
    · rintro ⟨label, hlabel, hline, rfl⟩
      cases label with
      | none => cases hline
      | some text =>
        cases hline
        exact ⟨rfl, rfl⟩
  · rw [htake]
    constructor
    · rintro ⟨rfl, rfl⟩
      exact ⟨none, by simp, rfl, rfl⟩
    · rintro ⟨label, hlabel, rfl, rfl⟩
      cases label with
      | none => exact ⟨rfl, rfl⟩
      | some text => exact absurd (hlabel text rfl) (hother text [] rfl)

theorem readTitle_form {keyword : Token} {rest : List Token} {found : Statement}
    (hkeyword : keyword.kind = .keyword .title) (hread : readTitle keyword rest = .ok found) :
    Form (keyword :: rest) found := by
  unfold readTitle at hread
  obtain ⟨text, tail, rfl, htext, htake⟩ | ⟨_, htake⟩ := take?_cases .text rest
  · simp only [htake] at hread
    obtain ⟨rfl, rfl⟩ := finish_eq_ok_iff.1 hread
    exact .title hkeyword htext
  · simp only [htake] at hread
    cases hread

theorem readParticipant_form {stop keyword : Token} {rest : List Token} {found : Statement}
    (hkeyword : keyword.kind = .keyword .participant)
    (hread : readParticipant stop rest = .ok found) : Form (keyword :: rest) found := by
  obtain ⟨⟨name, tail⟩, htaken, hrest⟩ := bind_eq_ok_iff.1 hread
  obtain ⟨rfl, hname⟩ := takeName_eq_ok_iff.1 htaken
  obtain ⟨as, tail, rfl, has, htake⟩ | ⟨_, htake⟩ := take?_cases (.keyword .label) tail
  · simp only [htake] at hrest
    obtain ⟨label, tail, rfl, hlabel, htake⟩ | ⟨_, htake⟩ := take?_cases .text tail
    · simp only [htake] at hrest
      obtain ⟨rfl, rfl⟩ := finish_eq_ok_iff.1 hrest
      exact .declareAs hkeyword hname has hlabel
    · simp only [htake] at hrest
      cases hrest
  · simp only [htake] at hrest
    obtain ⟨rfl, rfl⟩ := finish_eq_ok_iff.1 hrest
    exact .declare hkeyword hname

theorem readTarget_form {stop source arrow : Token} {rest : List Token} {found : Statement}
    (hsource : source.IsName) (harrow : arrow.kind = .arrow)
    (hread : readTarget stop source arrow rest = .ok found) :
    Form (source :: arrow :: rest) found := by
  obtain ⟨⟨target, tail⟩, htaken, hrest⟩ := bind_eq_ok_iff.1 hread
  obtain ⟨rfl, htarget⟩ := takeName_eq_ok_iff.1 htaken
  obtain ⟨colon, tail, rfl, hcolon, htake⟩ | ⟨_, htake⟩ := take?_cases .colon tail
  · simp only [htake] at hrest
    obtain ⟨label, hlabel, rfl, rfl⟩ := (finish_take?_eq_ok_iff (.signal source arrow target)).1 hrest
    exact .labelledSignal hsource harrow htarget hcolon hlabel
  · simp only [htake] at hrest
    cases tail with
    | nil =>
      cases hrest
      exact .signal hsource harrow htarget
    | cons token tail => cases hrest

theorem readName_form {stop : Token} {line : List Token} {found : Statement}
    (hread : readName stop line = .ok found) : Form line found := by
  obtain ⟨⟨source, rest⟩, htaken, hrest⟩ := bind_eq_ok_iff.1 hread
  obtain ⟨rfl, hsource⟩ := takeName_eq_ok_iff.1 htaken
  cases rest with
  | nil =>
    cases hrest
    exact .mention hsource
  | cons token rest =>
    by_cases harrow : token.kind = .arrow
    · simp only [harrow, if_true] at hrest
      exact readTarget_form hsource harrow hrest
    · simp only [harrow, if_false] at hrest
      cases hrest

/-- A line that makes a statement has a form of the grammar. -/
theorem read_form {stop first : Token} {rest : List Token} {found : Statement}
    (hread : read stop first rest = .ok found) : Form (first :: rest) found := by
  have hactivation (hkind : first.kind = .keyword .activate ∨ first.kind = .keyword .deactivate)
      (hread : (takeName stop rest >>= fun taken =>
        finish (.activation first taken.1) taken.2) = .ok found) : Form (first :: rest) found := by
    obtain ⟨⟨name, tail⟩, htaken, hrest⟩ := bind_eq_ok_iff.1 hread
    obtain ⟨rfl, hname⟩ := takeName_eq_ok_iff.1 htaken
    obtain ⟨rfl, rfl⟩ := finish_eq_ok_iff.1 hrest
    exact .activation hkind hname
  have hoperand (hkind : first.kind = .keyword .elseOperand ∨ first.kind = .keyword .andOperand)
      (hread : finish (.nextOperand first (take? .text rest).1) (take? .text rest).2 = .ok found) :
      Form (first :: rest) found := by
    obtain ⟨label, hlabel, rfl, rfl⟩ := (finish_take?_eq_ok_iff (.nextOperand first)).1 hread
    exact .nextOperand hkind hlabel
  unfold read at hread
  split at hread
  · next hkind => exact readTitle_form hkind hread
  · next hkind => exact readParticipant_form hkind hread
  · next hkind => exact readName_form hread
  · next hkind => exact hactivation (.inl hkind) hread
  · next hkind => exact hactivation (.inr hkind) hread
  · next kind hkind =>
    obtain ⟨label, hlabel, rfl, rfl⟩ := (finish_take?_eq_ok_iff (.openFragment first)).1 hread
    exact .openFragment hkind hlabel
  · next hkind => exact hoperand (.inl hkind) hread
  · next hkind => exact hoperand (.inr hkind) hread
  · next hkind =>
    obtain ⟨rfl, rfl⟩ := finish_eq_ok_iff.1 hread
    exact .closeFragment hkind
  · cases hread

/-- A line of a form of the grammar makes the statement of that form, whatever token ends it. -/
theorem read_of_form (stop : Token) {first : Token} {rest : List Token} {found : Statement}
    (hform : Form (first :: rest) found) : read stop first rest = .ok found := by
  have htake {name : Token} (hname : name.IsName) (tail : List Token) :
      takeName stop (name :: tail) = .ok (name, tail) := takeName_eq_ok_iff.2 ⟨rfl, hname⟩
  cases hform with
  | title hkeyword htext => simp [read, hkeyword, readTitle, take?, htext, finish]
  | declare hkeyword hname =>
    simp [read, hkeyword, readParticipant, htake hname, take?, finish, bind, Except.bind]
  | declareAs hkeyword hname has hlabel =>
    simp [read, hkeyword, readParticipant, htake hname, take?, has, hlabel, finish, bind, Except.bind]
  | mention hname => simp [read, hname.1, readName, htake hname, bind, Except.bind]
  | signal hsource harrow htarget =>
    simp [read, hsource.1, readName, htake hsource, harrow, readTarget, htake htarget, take?, bind,
      Except.bind]
  | @labelledSignal _ arrow target colon label hsource harrow htarget hcolon hlabel =>
    have hfinish := (finish_take?_eq_ok_iff (.signal first arrow target)).2 ⟨label, hlabel, rfl, rfl⟩
    simp [read, hsource.1, readName, htake hsource, harrow, readTarget, htake htarget, take?, hcolon,
      bind, Except.bind] at hfinish ⊢
    exact hfinish
  | activation hkeyword hname =>
    obtain hkeyword | hkeyword := hkeyword <;>
      simp [read, hkeyword, htake hname, finish, bind, Except.bind]
  | openFragment hkeyword hlabel =>
    simp only [read, hkeyword]
    exact (finish_take?_eq_ok_iff (.openFragment first)).2 ⟨_, hlabel, rfl, rfl⟩
  | nextOperand hkeyword hlabel =>
    have hfinish := (finish_take?_eq_ok_iff (.nextOperand first)).2 ⟨_, hlabel, rfl, rfl⟩
    obtain hkeyword | hkeyword := hkeyword <;> simpa only [read, hkeyword] using hfinish
  | closeFragment hkeyword => simp [read, hkeyword, finish]

/-- A line makes a statement exactly if it has the form of that statement. -/
theorem read_eq_ok_iff {stop first : Token} {rest : List Token} {found : Statement} :
    read stop first rest = .ok found ↔ Form (first :: rest) found :=
  ⟨read_form, read_of_form stop⟩

end TokenLine

end SequenceChart
