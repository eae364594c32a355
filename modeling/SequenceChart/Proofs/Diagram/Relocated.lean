import SequenceChart.Proofs.Diagram.Exact

namespace SequenceChart

/-- A change of tokens that keeps their kinds and values: nothing but their places is new. -/
def Token.Relocates (f : Token → Token) : Prop :=
  ∀ token, (f token).kind = token.kind ∧ (f token).value = token.value

theorem Token.Relocates.keeps {f : Token → Token} (hf : Relocates f) (tokens : List Token) :
    TokenLine.Keeps f tokens :=
  fun token _ => hf token

variable {f : Token → Token}

theorem Statement.textOf_map (hf : Token.Relocates f) (label : Option Token) :
    textOf (label.map f) = textOf label := by
  cases label with
  | none => rfl
  | some label => exact (hf label).2

namespace Builder

/-- The builder with other tokens in the places of its own. -/
def mapTokens (f : Token → Token) (builder : Builder) : Builder :=
  { builder with
    opened := builder.opened.map fun fragment => { fragment with token := fragment.token.map f }
    problems := builder.problems.map (Diagnostic.mapToken f) }

theorem mapTokens_diagram (builder : Builder) : (builder.mapTokens f).diagram = builder.diagram := by
  simp only [diagram, content, mapTokens, List.foldl_map]

theorem mapTokens_push (builder : Builder) (element : Element) :
    (builder.mapTokens f).push element = (builder.push element).mapTokens f :=
  rfl

theorem mapTokens_record (builder : Builder) (token : Token) (problem : Problem) :
    (builder.mapTokens f).record (f token) problem = (builder.record token problem).mapTokens f := by
  simp [record, mapTokens, Diagnostic.mapToken]

theorem mapTokens_ensure (builder : Builder) (name : String) :
    (builder.mapTokens f).ensure name = (builder.ensure name).mapTokens f := by
  have hfind : (builder.mapTokens f).find? name = builder.find? name := rfl
  simp only [ensure, hfind]
  split <;> rfl

theorem mapTokens_declare (hf : Token.Relocates f) (builder : Builder) (name : String)
    (label : Option Token) :
    (builder.mapTokens f).declare name (label.map f) = (builder.declare name label).mapTokens f := by
  have hfind : (builder.mapTokens f).find? name = builder.find? name := rfl
  simp only [declare, hfind]
  cases builder.find? name with
  | none =>
    rw [Statement.textOf_map hf]
    rfl
  | some participant =>
    cases label with
    | none => rfl
    | some label => exact congrArg ((builder.mapTokens f).relabel name) (hf label).2

/-- A builder does with other tokens what it does with the old ones. -/
theorem after_mapTokens (hf : Token.Relocates f) (builder : Builder) (statement : Statement) :
    (builder.mapTokens f).after (statement.mapTokens f) = (builder.after statement).mapTokens f := by
  cases statement with
  | setTitle => rfl
  | declare name label =>
    simp only [Statement.mapTokens, after, (hf name).2]
    exact mapTokens_declare hf builder name.value label
  | mention name =>
    simp only [Statement.mapTokens, after, (hf name).2]
    exact mapTokens_ensure builder name.value
  | signal source arrow target label =>
    simp only [Statement.mapTokens, after, (hf source).2, (hf arrow).2, (hf target).2,
      Statement.textOf_map hf, mapTokens_ensure, mapTokens_push]
  | activation keyword name =>
    simp only [Statement.mapTokens, after, (hf keyword).2, (hf name).2]
    split
    · simp only [activate, mapTokens_ensure]
      rfl
    · have hactive : (builder.mapTokens f).active = builder.active := rfl
      simp only [deactivate, hactive]
      split
      · rfl
      · exact mapTokens_record builder keyword _
  | openFragment keyword label =>
    simp only [Statement.mapTokens, after, (hf keyword).2, Statement.textOf_map hf]
    rfl
  | nextOperand keyword label =>
    simp only [Statement.mapTokens, after, nextOperand, Statement.textOf_map hf]
    cases hopened : builder.opened with
    | nil =>
      rw [← mapTokens_record]
      simp only [mapTokens, hopened, List.map_nil]
    | cons fragment outer => simp [mapTokens, hopened, turn]
  | closeFragment keyword =>
    simp only [Statement.mapTokens, after, closeFragment]
    cases hopened : builder.opened with
    | nil =>
      rw [← mapTokens_record]
      simp only [mapTokens, hopened, List.map_nil]
    | cons fragment outer => simp [mapTokens, hopened, leave]
  | unknown => rfl

/-- Statements with other tokens make the same diagram. -/
theorem foldl_after_mapTokens (hf : Token.Relocates f) (start : Diagram) (statements : List Statement) :
    ((statements.map (Statement.mapTokens f)).foldl after (ofDiagram start)).diagram =
      (statements.foldl after (ofDiagram start)).diagram := by
  have hsteps : (statements.map (Statement.mapTokens f)).foldl after ((ofDiagram start).mapTokens f) =
      (statements.foldl after (ofDiagram start)).mapTokens f := by
    rw [List.foldl_map]
    exact List.foldl_hom (mapTokens f) fun builder statement => after_mapTokens hf builder statement
  have hstart : (ofDiagram start).mapTokens f = ofDiagram start := rfl
  rw [hstart] at hsteps
  rw [hsteps, mapTokens_diagram]

end Builder

namespace Statement

theorem fragmentNesting_map (statement : Statement) :
    fragmentNesting (statement.mapTokens f) = fragmentNesting statement := by
  cases statement <;> rfl

theorem activationNesting_map (hf : Token.Relocates f) (name : String) (statement : Statement) :
    activationNesting name (statement.mapTokens f) = activationNesting name statement := by
  cases statement with
  | activation keyword other => simp only [mapTokens, activationNesting, (hf keyword).2, (hf other).2]
  | _ => rfl

theorem complaint?_map (hf : Token.Relocates f) (front : List Statement) (statement : Statement) :
    (statement.mapTokens f).complaint? (front.map (mapTokens f)) =
      (statement.complaint? front).map (Diagnostic.mapToken f) := by
  cases statement with
  | activation keyword name =>
    simp only [mapTokens, complaint?, (hf keyword).2, (hf name).2,
      Nesting.leftOpen_map (activationNesting_map hf name.value), ne_eq, List.map_eq_nil_iff]
    split
    · rfl
    split <;> rfl
  | nextOperand keyword label =>
    simp only [mapTokens, complaint?, Nesting.leftOpen_map fragmentNesting_map, ne_eq,
      List.map_eq_nil_iff]
    split <;> rfl
  | closeFragment keyword =>
    simp only [mapTokens, complaint?, Nesting.leftOpen_map fragmentNesting_map, ne_eq,
      List.map_eq_nil_iff]
    split <;> rfl
  | _ => rfl

theorem unclosed?_map (hf : Token.Relocates f) (back : List Statement) (statement : Statement) :
    (statement.mapTokens f).unclosed? (back.map (mapTokens f)) =
      (statement.unclosed? back).map (Diagnostic.mapToken f) := by
  cases statement with
  | openFragment keyword label =>
    simp only [mapTokens, unclosed?, Nesting.surplus_map fragmentNesting_map, (hf keyword).2]
    split <;> rfl
  | _ => rfl

end Statement

namespace TokenLine

theorem outcome?_map (hf : Token.Relocates f) (line : TokenLine) :
    (line.mapTokens f).outcome? = line.outcome?.map (mapOutcome f) := by
  obtain ⟨body, stop⟩ := line
  cases body with
  | nil => rfl
  | cons first rest => exact congrArg some (read_map (hf.keeps (first :: rest)).resembles)

theorem statements_map (hf : Token.Relocates f) (lines : List TokenLine) :
    statements (lines.map (mapTokens f)) = (statements lines).map (Statement.mapTokens f) :=
  filterMap_statement?_map fun line _ => hf.keeps line.body

/-- Lines that make the same statements but for their tokens go on doing so with one more line in
    front. -/
theorem statements_cons_congr {line other : TokenLine} {lines others : List TokenLine}
    (hline : other.statement?.map (Statement.mapTokens f) =
      line.statement?.map (Statement.mapTokens f))
    (hrest : (statements others).map (Statement.mapTokens f) =
      (statements lines).map (Statement.mapTokens f)) :
    (statements (other :: others)).map (Statement.mapTokens f) =
      (statements (line :: lines)).map (Statement.mapTokens f) := by
  rw [statements_cons, statements_cons, List.map_append, List.map_append, hrest, ← Option.toList_map,
    ← Option.toList_map, hline]

/-- The same with one more line at the end. -/
theorem statements_concat_congr {line other : TokenLine} {before earlier : List TokenLine}
    (hline : other.statement?.map (Statement.mapTokens f) =
      line.statement?.map (Statement.mapTokens f))
    (hbefore : (statements earlier).map (Statement.mapTokens f) =
      (statements before).map (Statement.mapTokens f)) :
    (statements (earlier ++ [other])).map (Statement.mapTokens f) =
      (statements (before ++ [line])).map (Statement.mapTokens f) := by
  rw [statements_concat, statements_concat, List.map_append, List.map_append, hbefore,
    ← Option.toList_map, ← Option.toList_map, hline]

theorem fault?_map (hf : Token.Relocates f) (before : List TokenLine) (line : TokenLine)
    (after : List TokenLine) :
    fault? (before.map (mapTokens f)) (line.mapTokens f) (after.map (mapTokens f)) =
      (fault? before line after).map (Diagnostic.mapToken f) := by
  simp only [fault?, outcome?_map hf, statements_map hf]
  cases line.outcome? with
  | none => rfl
  | some outcome =>
    cases outcome with
    | error problem => rfl
    | ok statement =>
      simp only [Option.map_some, mapOutcome, Statement.complaint?_map hf, Statement.unclosed?_map hf]
      cases statement.complaint? (statements before) <;> rfl

/-- What is reported of lines with other tokens is what is reported of the lines, attributed to the
    other tokens. -/
theorem faults_map (hf : Token.Relocates f) (before lines : List TokenLine) :
    faults (before.map (mapTokens f)) (lines.map (mapTokens f)) =
      (faults before lines).map (Diagnostic.mapToken f) := by
  induction lines generalizing before with
  | nil => rfl
  | cons line rest ih =>
    have hrest := ih (before ++ [line])
    rw [List.map_append, List.map_singleton] at hrest
    rw [List.map_cons, faults, faults, fault?_map hf, hrest, List.map_append, Option.toList_map]

end TokenLine

end SequenceChart
