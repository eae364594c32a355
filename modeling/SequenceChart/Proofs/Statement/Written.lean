import Mathlib
import SequenceChart.Proofs.Statement.Joined
import SequenceChart.Proofs.Token.Spelled

namespace SequenceChart

open Lexeme Token

/-- The token of a keyword, without a place. -/
def Token.ofKeyword (keyword : Keyword) : Token :=
  plain (.keyword keyword) keyword.word

/-- How a name is written: between quote marks, or as it is if it is a word, which at the start of a
    line must be none of the keywords. -/
inductive WritesName (leading : Bool) : String → String → Prop where
  | quoted {name : String} (hfilled : name ≠ "") (hquote : '"' ∉ name.toList)
      (hname : OneLine name.toList) : WritesName leading name ("\"" ++ name ++ "\"")
  | bare {name : String} (hword : isWord name.toList = true)
      (hleading : leading = true → ∀ keyword ∈ Keyword.lineKeywords, name ≠ keyword.word) :
      WritesName leading name name

/-- How the text at the end of a line is written, behind a mark, if there is one. -/
inductive WritesLabel (mark : String) : Option Token → String → Prop where
  | none : WritesLabel mark none ""
  | some {text : String} (htext : IsText text.toList) :
      WritesLabel mark (some (.plain .text text)) (mark ++ text)

namespace Statement

/-- How a statement, whose tokens have no places, is written as a line. -/
inductive Writes : Statement → String → Prop where
  | title {text : String} (htext : IsText text.toList) :
      Writes (.setTitle (.ofKeyword .title) (some text)) (Keyword.title.word ++ " " ++ text)
  | declare {name source tail : String} {label : Option Token} (hname : WritesName false name source)
      (hlabel : WritesLabel " as " label tail) :
      Writes (.declare (.plain .name name) label)
        (Keyword.participant.word ++ " " ++ source ++ tail)
  | mention {name source : String} (hname : WritesName true name source) :
      Writes (.mention (.plain .name name)) source
  | signal {source first arrow target second tail : String} {label : Option Token}
      (hsource : WritesName true source first) (harrow : arrow ∈ ["->", "-->", "-", "--"])
      (htarget : WritesName false target second) (hlabel : WritesLabel ": " label tail) :
      Writes (.signal (.plain .name source) (.plain .arrow arrow) (.plain .name target) label)
        (first ++ " " ++ arrow ++ " " ++ second ++ tail)
  | activation {keyword : Keyword} {name source : String}
      (hkeyword : keyword = .activate ∨ keyword = .deactivate) (hname : WritesName false name source) :
      Writes (.activation (.ofKeyword keyword) (.plain .name name)) (keyword.word ++ " " ++ source)
  | openFragment {kind : FragmentKind} {label : Option Token} {tail : String}
      (hlabel : WritesLabel " " label tail) :
      Writes (.openFragment (.ofKeyword (.fragment kind)) label) (kind.word ++ tail)
  | nextOperand {keyword : Keyword} {label : Option Token} {tail : String}
      (hkeyword : keyword = .elseOperand ∨ keyword = .andOperand) (hlabel : WritesLabel " " label tail) :
      Writes (.nextOperand (.ofKeyword keyword) label) (keyword.word ++ tail)
  | closeFragment : Writes (.closeFragment (.ofKeyword .close)) Keyword.close.word

end Statement

theorem Keyword.isWord_word {keyword : Keyword} (hkeyword : keyword ∈ lineKeywords) :
    isWord keyword.word.toList = true := by
  have hall : ∀ keyword ∈ lineKeywords, isWord keyword.word.toList = true := by decide +kernel
  exact hall keyword hkeyword

theorem Keyword.wordKind_word {keyword : Keyword} (hkeyword : keyword ∈ lineKeywords) :
    wordKind [] keyword.word.toList = .keyword keyword :=
  wordKind_eq_keyword_iff.2 ⟨String.ofList_toList, (context_eq_nil_iff.2 hkeyword).symm⟩

theorem Keyword.fragment_mem_lineKeywords (kind : FragmentKind) : fragment kind ∈ lineKeywords := by
  cases kind <;> decide

theorem Keyword.mem_lineKeywords_of_activation {keyword : Keyword}
    (hkeyword : keyword = .activate ∨ keyword = .deactivate) : keyword ∈ lineKeywords := by
  obtain rfl | rfl := hkeyword <;> decide

theorem Keyword.mem_lineKeywords_of_operand {keyword : Keyword}
    (hkeyword : keyword = .elseOperand ∨ keyword = .andOperand) : keyword ∈ lineKeywords := by
  obtain rfl | rfl := hkeyword <;> decide

theorem toList_mem_arrows {arrow : String} (harrow : arrow ∈ ["->", "-->", "-", "--"]) :
    arrow.toList ∈ arrows := by
  simp only [List.mem_cons, List.not_mem_nil, or_false] at harrow
  obtain rfl | rfl | rfl | rfl := harrow <;> simp [arrows]

/-- A keyword is read at the start of a line. -/
theorem Keyword.contents_word {keyword : Keyword} (hkeyword : keyword ∈ lineKeywords)
    {rest : List Char} (hrest : ∀ c ∈ rest.head?, continuesName c = false) :
    contents [] (keyword.word.toList ++ rest) =
      .ofKeyword keyword :: contentsAfter [] (.keyword keyword) rest := by
  rw [Lexeme.contents_word (Keyword.isWord_word hkeyword) hrest, Keyword.wordKind_word hkeyword,
    String.ofList_toList]
  rfl

/-- A name is read where it is written, whether or not between quote marks. -/
theorem WritesName.contents {leading : Bool} {name source : String}
    (hwrites : WritesName leading name source) {seen : List TokenKind}
    (hseen : if leading then seen = [] else ∀ word, wordKind seen word = .name)
    {rest : List Char} (hrest : ∀ c ∈ rest.head?, continuesName c = false) :
    contents seen (source.toList ++ rest) = .plain .name name :: contents (seen ++ [.name]) rest := by
  cases hwrites with
  | quoted hfilled hquote hname =>
    have hcontents := @contents_quoted seen name.toList hquote rest
    simpa using hcontents
  | bare hword hleading =>
    -- At the start of a line the word is looked up among the keywords. Elsewhere it is a name anyway.
    have hkind : wordKind seen name.toList = .name := by
      cases leading with
      | true =>
        obtain rfl : seen = [] := hseen
        obtain hname | ⟨keyword, hkeyword⟩ := wordKind_cases [] name.toList
        · exact hname
        · obtain ⟨hword, hcontext⟩ := wordKind_eq_keyword_iff.1 hkeyword
          rw [String.ofList_toList] at hword
          exact absurd hword (hleading rfl keyword (Keyword.context_eq_nil_iff.1 hcontext.symm))
      | false => exact hseen name.toList
    rw [contents_word hword hrest, hkind, String.ofList_toList]
    rfl

namespace WritesLabel

variable {mark tail : String} {label : Option Token}

theorem kind (hwrites : WritesLabel mark label tail) : ∀ text ∈ label, text.kind = .text := by
  intro text htext
  cases hwrites with
  | none => cases htext
  | some => exact Option.some.inj htext ▸ rfl

theorem oneLine (hmark : OneLine mark.toList) (hwrites : WritesLabel mark label tail) :
    OneLine tail.toList := by
  cases hwrites with
  | none => exact List.forall_mem_nil _
  | some htext =>
    rw [String.toList_append]
    exact hmark.append htext.oneLine

/-- A mark that does not belong to a name ends the name in front of it. -/
theorem head? {c : Char} {rest : List Char} (hmark : mark.toList = c :: rest)
    (hends : continuesName c = false) (hwrites : WritesLabel mark label tail) :
    ∀ d ∈ tail.toList.head?, continuesName d = false := by
  cases hwrites with
  | none =>
    intro d hd
    cases hd
  | some htext =>
    rw [String.toList_append, hmark]
    intro d hd
    exact Option.some.inj hd ▸ hends

/-- Behind a keyword that takes free text, the text is the only other token. -/
theorem contents_keyword {keyword : Keyword} (hkeyword : keyword ∈ Keyword.lineKeywords)
    (htakes : takesText (.keyword keyword) = true) (hwrites : WritesLabel " " label tail) :
    contents [] (keyword.word ++ tail).toList = .ofKeyword keyword :: label.toList := by
  have hends := hwrites.head? (c := ' ') rfl (by decide +kernel)
  rw [String.toList_append, Keyword.contents_word hkeyword hends]
  cases hwrites with
  | none => exact congrArg (_ :: ·) (contentsAfter_nil _)
  | @some text htext =>
    have htail : (" " ++ text).toList = ' ' :: text.toList := String.toList_append
    rw [htail, contentsAfter_text htakes htext, String.ofList_toList]
    rfl

theorem contents_label (hwrites : WritesLabel " as " label tail) :
    contents [.keyword .participant, .name] tail.toList =
      label.toList.flatMap ([.ofKeyword .label, ·]) := by
  cases hwrites with
  | none => simp
  | @some text htext =>
    have hline : (" as " ++ text).toList = ' ' :: ("as".toList ++ ' ' :: text.toList) :=
      String.toList_append
    have hword : isWord "as".toList = true := by decide +kernel
    have hkind : wordKind [.keyword .participant, .name] "as".toList = .keyword .label := rfl
    rw [hline, contents_gap (by decide), contents_word hword (ends_space _), hkind, contentsAfter_text rfl htext,
      String.ofList_toList, String.ofList_toList]
    rfl

theorem contents_colon {seen : List TokenKind} (hwrites : WritesLabel ": " label tail) :
    contents seen tail.toList = label.toList.flatMap ([.plain .colon ":", ·]) := by
  cases hwrites with
  | none => simp
  | @some text htext =>
    have hline : (": " ++ text).toList = ':' :: ' ' :: text.toList := String.toList_append
    rw [hline, Lexeme.contents_colon htext, String.ofList_toList]
    rfl

end WritesLabel

namespace WritesName

variable {leading : Bool} {name source : String}

theorem isName (hwrites : WritesName leading name source) : (Token.plain .name name).IsName := by
  cases hwrites with
  | quoted hfilled hquote hname => exact ⟨rfl, hfilled⟩
  | bare hword hleading =>
    refine ⟨rfl, ?_⟩
    rintro rfl
    cases hword

/-- Behind a keyword that a name follows, no word is a keyword. -/
theorem contents_keyword {keyword : Keyword}
    (hkeyword : keyword = .participant ∨ keyword = .activate ∨ keyword = .deactivate)
    (hwrites : WritesName false name source) {rest : List Char}
    (hrest : ∀ c ∈ rest.head?, continuesName c = false) :
    Lexeme.contents [] (keyword.word.toList ++ ' ' :: (source.toList ++ rest)) =
      .ofKeyword keyword :: .plain .name name ::
        Lexeme.contents [.keyword keyword, .name] rest := by
  have hmem : keyword ∈ Keyword.lineKeywords := by
    obtain rfl | rfl | rfl := hkeyword <;> decide
  have htakes : takesText (.keyword keyword) = false := by
    obtain rfl | rfl | rfl := hkeyword <;> rfl
  have hseen : ∀ word, wordKind ([] ++ [.keyword keyword]) word = .name := by
    obtain rfl | rfl | rfl := hkeyword <;> exact fun _ => rfl
  rw [Keyword.contents_word hmem (ends_space _), contentsAfter_space htakes,
    hwrites.contents hseen hrest]
  rfl

theorem oneLine (hwrites : WritesName leading name source) : OneLine source.toList := by
  cases hwrites with
  | quoted hfilled hquote hname =>
    have hmark : OneLine "\"".toList := by simp [OneLine]
    rw [String.toList_append, String.toList_append]
    exact (hmark.append hname).append hmark
  | bare hword hleading => exact oneLine_of_isWord hword

end WritesName

namespace Statement

theorem Writes.oneLine {statement : Statement} {line : String} (hwrites : statement.Writes line) :
    OneLine line.toList := by
  have hspace : OneLine " ".toList := by simp [OneLine]
  have hkeyword {keyword : Keyword} (hkeyword : keyword ∈ Keyword.lineKeywords) :
      OneLine keyword.word.toList := oneLine_of_isWord (Keyword.isWord_word hkeyword)
  cases hwrites with
  | title htext =>
    simp only [String.toList_append]
    exact ((hkeyword (by decide)).append hspace).append htext.oneLine
  | declare hname hlabel =>
    simp only [String.toList_append]
    refine (((hkeyword (by decide)).append hspace).append hname.oneLine).append (hlabel.oneLine ?_)
    simp [OneLine]
  | mention hname => exact hname.oneLine
  | @signal _ _ arrow _ _ _ _ hsource harrow htarget hlabel =>
    have hall : ∀ arrow ∈ arrows, OneLine arrow := by decide
    have harrow : OneLine arrow.toList := hall _ (toList_mem_arrows harrow)
    simp only [String.toList_append]
    refine ((((hsource.oneLine.append hspace).append harrow).append hspace).append
      htarget.oneLine).append (hlabel.oneLine ?_)
    simp [OneLine]
  | activation hactivation hname =>
    have hkeyword := hkeyword (Keyword.mem_lineKeywords_of_activation hactivation)
    simp only [String.toList_append]
    exact (hkeyword.append hspace).append hname.oneLine
  | @openFragment kind _ _ hlabel =>
    rw [String.toList_append]
    exact (hkeyword (Keyword.fragment_mem_lineKeywords kind)).append (hlabel.oneLine hspace)
  | nextOperand hoperand hlabel =>
    rw [String.toList_append]
    exact (hkeyword (Keyword.mem_lineKeywords_of_operand hoperand)).append (hlabel.oneLine hspace)
  | closeFragment => exact hkeyword (by decide)

/-- A line that is written for a statement has the form of that statement. -/
theorem Writes.form {statement : Statement} {line : String} (hwrites : statement.Writes line) :
    TokenLine.Form (contents [] line.toList) statement := by
  cases hwrites with
  | @title text htext =>
    have hlabel : WritesLabel " " (some (.plain .text text)) (" " ++ text) := .some htext
    rw [String.append_assoc, hlabel.contents_keyword (by decide) rfl]
    exact .title rfl rfl
  | @declare name source tail label hname hlabel =>
    have hline : (Keyword.participant.word ++ " " ++ source ++ tail).toList =
        Keyword.participant.word.toList ++ ' ' :: (source.toList ++ tail.toList) := by
      simp [String.toList_append]
    have hends := hlabel.head? (c := ' ') rfl (by decide +kernel)
    rw [hline, hname.contents_keyword (.inl rfl) hends, hlabel.contents_label]
    cases hlabel with
    | none => exact .declare rfl hname.isName
    | some htext => exact .declareAs rfl hname.isName rfl rfl
  | mention hname =>
    have hcontents : contents [] (line.toList ++ []) = _ := hname.contents rfl ends_nil
    rw [List.append_nil, contents_nil] at hcontents
    rw [hcontents]
    exact .mention hname.isName
  | @signal source first arrow target second tail label hsource harrow htarget hlabel =>
    have hline : (first ++ " " ++ arrow ++ " " ++ second ++ tail).toList =
        first.toList ++ ' ' :: (arrow.toList ++ ' ' :: (second.toList ++ tail.toList)) := by
      simp [String.toList_append]
    have hends := hlabel.head? (c := ':') rfl (by decide +kernel)
    rw [hline, hsource.contents rfl (ends_space _), contents_gap (by decide),
      contents_arrow (toList_mem_arrows harrow), htarget.contents (fun _ => rfl) hends,
      hlabel.contents_colon, String.ofList_toList]
    have hkind := hlabel.kind
    cases hlabel with
    | none => exact .signal hsource.isName rfl htarget.isName
    | some htext => exact .labelledSignal hsource.isName rfl htarget.isName rfl hkind
  | @activation keyword name source hkeyword hname =>
    have hline : (keyword.word ++ " " ++ source).toList =
        keyword.word.toList ++ ' ' :: (source.toList ++ []) := by
      simp [String.toList_append]
    rw [hline, hname.contents_keyword (.inr hkeyword) ends_nil, contents_nil]
    exact .activation (hkeyword.imp (congrArg _) (congrArg _)) hname.isName
  | @openFragment kind label tail hlabel =>
    have hcontents := hlabel.contents_keyword (Keyword.fragment_mem_lineKeywords kind) rfl
    exact hcontents ▸ .openFragment rfl hlabel.kind
  | @nextOperand keyword label tail hkeyword hlabel =>
    have htakes : takesText (.keyword keyword) = true := by
      obtain rfl | rfl := hkeyword <;> rfl
    rw [hlabel.contents_keyword (Keyword.mem_lineKeywords_of_operand hkeyword) htakes]
    exact .nextOperand (hkeyword.imp (congrArg _) (congrArg _)) hlabel.kind
  | closeFragment =>
    have hcontents : contents [] (Keyword.close.word.toList ++ []) = _ :=
      Keyword.contents_word (by decide) ends_nil
    rw [List.append_nil, contentsAfter_nil] at hcontents
    rw [hcontents]
    exact .closeFragment rfl

end Statement

namespace TokenLine

/-- The tokens of a line in front of the one that ends it, without their places. -/
def contents (line : TokenLine) : List Token :=
  line.body.map unplaced

/-- A text without line breaks is one line. -/
theorem ofText_of_oneLine {text : String} (htext : OneLine text.toList) :
    (ofText text).map contents = [Lexeme.contents [] text.toList] := by
  rw [ofText, Token.ofText, splitLines_of_oneLine htext, ofTokens_ofLines_nil]
  exact congrArg ([·]) (map_unplaced_place 1 0 0 _)

/-- The lines of a text with a line break in it are those of the text in front of the break and those
    of the text behind it, but for the places of their tokens. -/
theorem ofText_append {first : String} (hfirst : first.toList.getLast? ≠ some '\r') (second : String) :
    (ofText (first ++ "\n" ++ second)).map contents =
      (ofText first).map contents ++ (ofText second).map contents := by
  obtain ⟨body, stop, htokens, hstop, hbody, hjoined⟩ := Token.ofText_append first second hfirst
  generalize body.countP (·.kind = .lineBreak) + 1 = lines at hjoined
  generalize first.toList.length + 1 = characters at hjoined
  have hlater : ofTokens ((Token.ofText second).map (shift lines characters)) =
      (ofText second).map (mapTokens (shift lines characters)) := ofTokens_map fun _ _ => rfl
  rw [ofText, hjoined, ofTokens_asBreak hbody hstop, ← htokens, hlater, List.map_append, List.map_map,
    List.map_map]
  congr 1
  · refine List.map_congr_left fun line hline => ?_
    have hfixed : ∀ token ∈ line.body, token.breakAtEnd = token :=
      fun token htoken => if_neg ((mem_of_mem_ofTokens hline).1 token htoken).2.2
    exact congrArg (List.map unplaced) ((List.map_congr_left hfixed).trans (List.map_id _))
  · exact List.map_congr_left fun line hline => List.map_map

theorem ofText_intercalate {first : String} {rest : List String}
    (hlines : ∀ line ∈ first :: rest, OneLine line.toList) :
    (ofText ("\n".intercalate (first :: rest))).map contents =
      (first :: rest).map (Lexeme.contents [] ·.toList) := by
  induction rest generalizing first with
  | nil =>
    rw [String.intercalate_singleton]
    exact ofText_of_oneLine (hlines first List.mem_cons_self)
  | cons second rest ih =>
    obtain ⟨hfirst, hrest⟩ := List.forall_mem_cons.1 hlines
    have hlast : first.toList.getLast? ≠ some '\r' :=
      fun hreturn => (hfirst '\r' (List.mem_of_getLast? hreturn)).2 rfl
    rw [String.intercalate_cons_cons, ofText_append hlast, ofText_of_oneLine hfirst, ih hrest]
    rfl

theorem statement?_of_form {line : TokenLine} {statement : Statement}
    (hform : Form line.body statement) : line.statement? = some statement ∧ line.problem? = none := by
  obtain ⟨body, stop⟩ := line
  cases body with
  | nil => cases hform
  | cons first rest =>
    have hread := read_of_form stop hform
    simp [statement?, problem?, outcome?, hread]

theorem filterMap_of_forms {lines : List TokenLine} {statements : List Statement}
    (hforms : List.Forall₂ (fun line statement => Form line.body statement) lines statements) :
    lines.filterMap statement? = statements ∧ lines.filterMap problem? = [] := by
  induction hforms with
  | nil => exact ⟨rfl, rfl⟩
  | cons hform hforms ih =>
    obtain ⟨hstatement, hproblem⟩ := statement?_of_form hform
    rw [List.filterMap_cons_some hstatement, List.filterMap_cons_none hproblem, ih.1, ih.2]
    exact ⟨rfl, rfl⟩

end TokenLine

namespace Script

open TokenLine

theorem ofText_of_forms {text : String} {statements : List Statement}
    (hforms : List.Forall₂ Form ((TokenLine.ofText text).map contents) statements) :
    ∃ found, ofText text = .ok ⟨found, []⟩ ∧ found.map (Statement.mapTokens unplaced) = statements := by
  have hkeeps : ∀ line ∈ TokenLine.ofText text, Keeps unplaced line.body :=
    fun _ _ _ _ => ⟨rfl, rfl⟩
  have hmoved : List.Forall₂ (fun line statement => Form line.body statement)
      ((TokenLine.ofText text).map (mapTokens unplaced)) statements := by
    rw [List.forall₂_map_left_iff] at hforms ⊢
    exact hforms
  obtain ⟨hstatements, hproblems⟩ := filterMap_of_forms hmoved
  rw [filterMap_statement?_map hkeeps] at hstatements
  rw [filterMap_problem?_map hkeeps, List.map_eq_nil_iff] at hproblems
  exact ⟨_, hproblems ▸ ofText_eq_ok text, hstatements⟩

/-- Statements are read back from lines written for them. -/
theorem ofText_written {statements : List Statement} {lines : List String}
    (hwritten : List.Forall₂ Statement.Writes statements lines) :
    ∃ found, ofText ("\n".intercalate lines) = .ok ⟨found, []⟩ ∧
      found.map (Statement.mapTokens unplaced) = statements := by
  cases hwritten with
  | nil => exact ⟨[], by cbv, rfl⟩
  | cons hfirst hrest =>
    have hlines := (List.Forall₂.cons hfirst hrest).flip.imp fun line _ hwrites =>
      And.intro hwrites.oneLine hwrites.form
    obtain ⟨honeLine, hforms⟩ := (List.forall₂_and_left _ _).1 hlines
    apply ofText_of_forms
    rw [ofText_intercalate honeLine, List.forall₂_map_left_iff]
    exact hforms

theorem ofText_written_quoted :
    let statements : List Statement :=
      [.setTitle (.ofKeyword .title) (some "# 1 // 2"),
        .declare (.plain .name "as") (some (.plain .text "\u00A0as # \"it\"")),
        .mention (.plain .name "end"),
        .mention (.plain .name "e\u0301.1"),
        .signal (.plain .name "a // b") (.plain .arrow "--") (.plain .name "participant")
          (some (.plain .text "-> : end")),
        .activation (.ofKeyword .activate) (.plain .name "else"),
        .openFragment (.ofKeyword (.fragment .critical)) (some (.plain .text "end")),
        .nextOperand (.ofKeyword .andOperand) none,
        .closeFragment (.ofKeyword .close)]
    let lines :=
      ["title # 1 // 2", "participant as as \u00A0as # \"it\"", "\"end\"", "e\u0301.1",
        "\"a // b\" -- participant: -> : end", "activate else", "critical end", "and", "end"]
    List.Forall₂ Statement.Writes statements lines ∧
      ∃ found, ofText ("\n".intercalate lines) = .ok ⟨found, []⟩ ∧
        found.map (Statement.mapTokens unplaced) = statements := by
  intro statements lines
  have hwritten : List.Forall₂ Statement.Writes statements lines := by
    refine .cons (.title ?_) <| .cons (.declare (.bare ?_ ?_) (.some ?_)) <|
      .cons (.mention (.quoted ?_ ?_ ?_)) <| .cons (.mention (.bare ?_ ?_)) <|
      .cons (.signal (.quoted ?_ ?_ ?_) ?_ (.bare ?_ ?_) (.some ?_)) <|
      .cons (.activation (.inl rfl) (.bare ?_ ?_)) <| .cons (.openFragment (.some ?_)) <|
      .cons (.nextOperand (.inr rfl) .none) <| .cons .closeFragment .nil
    all_goals decide +kernel
  exact ⟨hwritten, ofText_written hwritten⟩

end Script

end SequenceChart
