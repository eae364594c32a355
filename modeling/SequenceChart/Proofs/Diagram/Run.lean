import SequenceChart.Diagram.Builder
import SequenceChart.Proofs.Statement.Grammar

namespace SequenceChart

/-- A statement that no open builder refuses: its names have characters, and a title is given. -/
def Statement.Complete : Statement → Prop
  | .setTitle _ title => title.isSome
  | .declare name _ => name.value ≠ ""
  | .mention name => name.value ≠ ""
  | .signal source _ target _ => source.value ≠ "" ∧ target.value ≠ ""
  | .activation _ name => name.value ≠ ""
  | .openFragment _ _ => True
  | .nextOperand _ _ => True
  | .closeFragment _ => True
  | .unknown => False

theorem TokenLine.Form.complete {line : List Token} {statement : Statement}
    (hform : Form line statement) : statement.Complete := by
  cases hform with
  | title => exact rfl
  | declare _ hname => exact hname.2
  | declareAs _ hname => exact hname.2
  | mention hname => exact hname.2
  | signal hsource _ htarget => exact ⟨hsource.2, htarget.2⟩
  | labelledSignal hsource _ htarget => exact ⟨hsource.2, htarget.2⟩
  | activation _ hname => exact hname.2
  | openFragment => trivial
  | nextOperand => trivial
  | closeFragment => trivial

/-- What is reported of a fragment that is still open at the end, if it has a token. -/
def Diagnostic.unclosed? (fragment : Option Token × String) : Option Diagnostic :=
  fragment.1.map (⟨·, .unclosedFragment fragment.2⟩)

namespace Builder

def create (builder : Builder) (name : String) (label : Option String) : Builder :=
  { builder with
    participants := builder.participants ++ [⟨name, (label.filter (· ≠ "")).getD name⟩] }

def ensure (builder : Builder) (name : String) : Builder :=
  match builder.find? name with
  | some _ => builder
  | none => builder.create name none

def relabel (builder : Builder) (name label : String) : Builder :=
  { builder with participants := Building.relabelFirst name label builder.participants }

def push (builder : Builder) (element : Element) : Builder :=
  { builder with body := builder.body.push element }

def record (builder : Builder) (token : Token) (problem : Problem) : Builder :=
  { builder with problems := builder.problems ++ [⟨token, problem⟩] }

def declare (builder : Builder) (name : String) (label : Option Token) : Builder :=
  match builder.find? name, label with
  | none, _ => builder.create name (some (Statement.textOf label))
  | some _, none => builder
  | some _, some label => builder.relabel name label.value

def activate (builder : Builder) (name : String) : Builder :=
  { builder.ensure name with active := name :: builder.active }.push (.activation name true)

def deactivate (builder : Builder) (name : String) (token : Token) : Builder :=
  if name ∈ builder.active then
    { builder with active := builder.active.erase name }.push (.activation name false)
  else builder.record token (.notActive name)

def nextOperand (builder : Builder) (guard : String) (token : Token) : Builder :=
  match builder.opened with
  | [] => builder.record token .outsideFragment
  | fragment :: outer => builder.turn fragment outer guard

def closeFragment (builder : Builder) (token : Token) : Builder :=
  match builder.opened with
  | [] => builder.record token .unmatchedClose
  | fragment :: outer => builder.leave fragment outer

/-- The builder after a statement that it does not refuse. -/
def after (builder : Builder) : Statement → Builder
  | .setTitle _ title => { builder with title }
  | .declare name label => builder.declare name.value label
  | .mention name => builder.ensure name.value
  | .signal source arrow target label =>
    ((builder.ensure source.value).ensure target.value).push
      (.signal ⟨source.value, target.value, Statement.textOf label, Building.styleOf arrow.value,
        Building.hasHead arrow.value⟩)
  | .activation keyword name =>
    if keyword.value = Keyword.activate.word then builder.activate name.value
    else builder.deactivate name.value keyword
  | .openFragment keyword label =>
    builder.enter keyword.value (Statement.textOf label) (some keyword)
  | .nextOperand keyword label => builder.nextOperand (Statement.textOf label) keyword
  | .closeFragment keyword => builder.closeFragment keyword
  | .unknown => builder

/-- The open fragments, innermost first: the token of each, if any, and its kind. -/
def fragments (builder : Builder) : List (Option Token × String) :=
  builder.opened.map fun fragment => (fragment.token, fragment.enclosure.kind)

theorem ensure_eq (builder : Builder) (name : String) :
    ∃ participants, builder.ensure name = { builder with participants } := by
  unfold ensure
  split
  · exact ⟨_, rfl⟩
  · exact ⟨_, rfl⟩

theorem declare_eq (builder : Builder) (name : String) (label : Option Token) :
    ∃ participants, builder.declare name label = { builder with participants } := by
  unfold declare
  split
  · exact ⟨_, rfl⟩
  · exact ⟨_, rfl⟩
  · exact ⟨_, rfl⟩

@[simp] theorem ensure_isFinished (builder : Builder) (name : String) :
    (builder.ensure name).isFinished = builder.isFinished := by
  obtain ⟨participants, hensure⟩ := ensure_eq builder name
  rw [hensure]

@[simp] theorem ensure_opened (builder : Builder) (name : String) :
    (builder.ensure name).opened = builder.opened := by
  obtain ⟨participants, hensure⟩ := ensure_eq builder name
  rw [hensure]

@[simp] theorem ensure_active (builder : Builder) (name : String) :
    (builder.ensure name).active = builder.active := by
  obtain ⟨participants, hensure⟩ := ensure_eq builder name
  rw [hensure]

@[simp] theorem ensure_problems (builder : Builder) (name : String) :
    (builder.ensure name).problems = builder.problems := by
  obtain ⟨participants, hensure⟩ := ensure_eq builder name
  rw [hensure]

theorem after_isFinished (builder : Builder) (statement : Statement) :
    (builder.after statement).isFinished = builder.isFinished := by
  cases statement with
  | setTitle => rfl
  | declare name label =>
    obtain ⟨participants, hdeclare⟩ := declare_eq builder name.value label
    rw [after, hdeclare]
  | mention name => exact ensure_isFinished builder name.value
  | signal => simp [after, push]
  | activation =>
    simp only [after, activate, deactivate]
    split
    · simp [push]
    · split <;> rfl
  | openFragment => rfl
  | nextOperand =>
    simp only [after, nextOperand]
    split <;> rfl
  | closeFragment =>
    simp only [after, closeFragment]
    split <;> rfl
  | unknown => rfl

end Builder

namespace Building

variable {A B : Type} {builder after : Builder}

theorem run_bind_ok {call : Building A} {next : A → Building B} {a : A}
    (hcall : call.run.run builder = (.ok a, after)) :
    (call >>= next).run.run builder = (next a).run.run after := by
  simp only [ExceptT.run_bind, StateT.run_bind, hcall]
  rfl

theorem run_bind_error {call : Building A} {next : A → Building B} {error : BuildError}
    (hcall : call.run.run builder = (.error error, after)) :
    (call >>= next).run.run builder = (.error error, after) := by
  simp only [ExceptT.run_bind, StateT.run_bind, hcall]
  rfl

theorem run_bind_eq_ok {call : Building A} {next : A → Building B} {b : B}
    (hrun : (call >>= next).run.run builder = (.ok b, after)) :
    ∃ a middle, call.run.run builder = (.ok a, middle) ∧ (next a).run.run middle = (.ok b, after) := by
  rcases hcall : call.run.run builder with ⟨_ | a, middle⟩
  · cases (run_bind_error hcall).symm.trans hrun
  · exact ⟨a, middle, rfl, (run_bind_ok hcall).symm.trans hrun⟩

@[simp] theorem run_get_bind {next : Builder → Building B} :
    (get >>= next).run.run builder = (next builder).run.run builder := rfl

@[simp] theorem run_modify {f : Builder → Builder} :
    (modify f : Building Unit).run.run builder = (.ok (), f builder) := rfl

theorem checkOpen_run (hopen : builder.isFinished = false) :
    checkOpen.run.run builder = (.ok (), builder) := by
  simp only [checkOpen, run_get_bind, hopen]
  rfl

theorem checkOpen_refused (hfinished : builder.isFinished = true) :
    checkOpen.run.run builder = (.error .finished, builder) := by
  simp only [checkOpen, run_get_bind, hfinished]
  rfl

/-- Nothing happens behind the look at whether the builder is finished. -/
theorem refused (hfinished : builder.isFinished = true) (call : Unit → Building A) :
    (checkOpen >>= call).run.run builder = (.error .finished, builder) :=
  run_bind_error (checkOpen_refused hfinished)

theorem create_run {name : String} (hopen : builder.isFinished = false) (hname : name ≠ "")
    (label : Option String) :
    ∃ participant, (create name label).run.run builder = (.ok participant, builder.create name label) := by
  refine ⟨⟨name, (label.filter (· ≠ "")).getD name⟩, ?_⟩
  rw [create, run_bind_ok (checkOpen_run hopen), if_neg hname]
  rfl

theorem ensure_run {name : String} (hopen : builder.isFinished = false) (hname : name ≠ "") :
    ∃ participant, (ensure name).run.run builder = (.ok participant, builder.ensure name) := by
  rw [ensure, run_get_bind, Builder.ensure]
  cases builder.find? name with
  | some participant => exact ⟨participant, rfl⟩
  | none => exact create_run hopen hname none

theorem relabel_run {name : String} {participant : Participant}
    (hopen : builder.isFinished = false) (hfound : builder.find? name = some participant)
    (label : String) :
    ∃ participant, (relabel name label).run.run builder = (.ok participant, builder.relabel name label) := by
  refine ⟨{ participant with label }, ?_⟩
  rw [relabel, run_bind_ok (checkOpen_run hopen), run_get_bind, hfound]
  rfl

theorem add_run {element : Element} (hopen : builder.isFinished = false) :
    (add element).run.run builder = (.ok (), builder.push element) := by
  rw [add, run_bind_ok (checkOpen_run hopen)]
  rfl

theorem activate_run {name : String} (hopen : builder.isFinished = false) (hname : name ≠ "") :
    (activate name).run.run builder = (.ok (), builder.activate name) := by
  obtain ⟨participant, hensure⟩ := ensure_run hopen hname
  rw [activate, run_bind_ok hensure, run_bind_ok run_modify, add_run (by simpa using hopen),
    Builder.ensure_active]
  rfl

theorem deactivate_run {name : String} {token : Token} (hopen : builder.isFinished = false) :
    (deactivate name (some token)).run.run builder = (.ok (), builder.deactivate name token) := by
  rw [deactivate, run_get_bind, Builder.deactivate]
  by_cases hactive : name ∈ builder.active
  · rw [if_pos hactive, if_pos hactive, run_bind_ok run_modify, add_run (by simpa using hopen)]
  · rw [if_neg hactive, if_neg hactive]
    rfl

theorem declare_run {name : Token} {label : Option Token} (hopen : builder.isFinished = false)
    (hname : name.value ≠ "") :
    (apply (.declare name label)).run.run builder = (.ok (), builder.declare name.value label) := by
  unfold apply Builder.declare
  rw [run_get_bind]
  cases hfound : builder.find? name.value with
  | none =>
    obtain ⟨participant, hcreate⟩ := create_run hopen hname (some (Statement.textOf label))
    exact run_bind_ok hcreate
  | some participant =>
    cases label with
    | none => rfl
    | some label =>
      obtain ⟨participant, hrelabel⟩ := relabel_run hopen hfound label.value
      exact run_bind_ok hrelabel

/-- An open builder does what a complete statement asks for. -/
theorem apply_run {statement : Statement} (hopen : builder.isFinished = false)
    (hcomplete : statement.Complete) :
    (apply statement).run.run builder = (.ok (), builder.after statement) := by
  cases statement with
  | setTitle keyword title =>
    obtain ⟨title, rfl⟩ := Option.isSome_iff_exists.1 hcomplete
    rw [apply, setTitle, run_bind_ok (checkOpen_run hopen)]
    rfl
  | declare name label => exact declare_run hopen hcomplete
  | mention name =>
    obtain ⟨participant, hensure⟩ := ensure_run hopen hcomplete
    exact run_bind_ok hensure
  | signal source arrow target label =>
    obtain ⟨participant, hsource⟩ := ensure_run hopen hcomplete.1
    have hopenSource : (builder.ensure source.value).isFinished = false := by simpa using hopen
    obtain ⟨participant, htarget⟩ := ensure_run hopenSource hcomplete.2
    rw [apply, run_bind_ok hsource, run_bind_ok htarget, addSignal, add_run (by simpa using hopen)]
    rfl
  | activation keyword name =>
    rw [apply, Builder.after]
    by_cases hkeyword : keyword.value = Keyword.activate.word
    · rw [if_pos hkeyword, if_pos hkeyword]
      exact activate_run hopen hcomplete
    · rw [if_neg hkeyword, if_neg hkeyword]
      exact deactivate_run hopen
  | openFragment keyword label =>
    rw [apply, openFragment, run_bind_ok (checkOpen_run hopen)]
    rfl
  | nextOperand keyword label =>
    rw [apply, nextOperand, run_bind_ok (checkOpen_run hopen), run_get_bind, Builder.after,
      Builder.nextOperand]
    cases builder.opened <;> rfl
  | closeFragment keyword =>
    rw [apply, closeFragment, run_bind_ok (checkOpen_run hopen), run_get_bind, Builder.after,
      Builder.closeFragment]
    cases builder.opened <;> rfl
  | unknown => exact hcomplete.elim

theorem applyAll_run {statements : List Statement} (hopen : builder.isFinished = false)
    (hcomplete : ∀ statement ∈ statements, statement.Complete) :
    (applyAll statements).run.run builder = (.ok (), statements.foldl Builder.after builder) := by
  induction statements generalizing builder with
  | nil => rfl
  | cons statement rest ih =>
    obtain ⟨hstatement, hrest⟩ := List.forall_mem_cons.1 hcomplete
    have hstill : (builder.after statement).isFinished = false := by
      rw [Builder.after_isFinished, hopen]
    rw [applyAll, run_bind_ok (apply_run hopen hstatement), ih hstill hrest, List.foldl_cons]

/-- Leaving the open fragments is reported of each, and does not change the diagram. -/
theorem leaveAll_run (htokens : ∀ fragment ∈ builder.opened, fragment.token.isSome) :
    ∃ after, (leaveAll builder.opened).run.run builder = (.ok (), after) ∧
      after.problems = builder.problems ++ builder.fragments.filterMap Diagnostic.unclosed? ∧
      after.diagram = builder.diagram := by
  generalize hopened : builder.opened = opened
  rw [hopened] at htokens
  induction opened generalizing builder with
  | nil => exact ⟨builder, rfl, by simp [Builder.fragments, hopened], rfl⟩
  | cons fragment outer ih =>
    obtain ⟨htoken, houter⟩ := List.forall_mem_cons.1 htokens
    obtain ⟨token, htoken⟩ := Option.isSome_iff_exists.1 htoken
    -- The innermost fragment is reported and left, and the others are left by the builder after it.
    let left := (builder.record token (.unclosedFragment fragment.enclosure.kind)).leave fragment outer
    have hstep : (leaveAll (fragment :: outer)).run.run builder = (leaveAll outer).run.run left := by
      rw [leaveAll, htoken]
      rfl
    obtain ⟨after, hrun, hproblems, hdiagram⟩ := @ih left houter rfl
    refine ⟨after, hstep.trans hrun, ?_, ?_⟩
    · rw [hproblems]
      simp [left, Builder.leave, Builder.record, Builder.fragments, hopened, Diagnostic.unclosed?,
        htoken]
    · rw [hdiagram]
      simp [left, Builder.leave, Builder.record, Builder.diagram, Builder.content, hopened]

theorem finish_run (hopen : builder.isFinished = false)
    (htokens : ∀ fragment ∈ builder.opened, fragment.token.isSome) :
    ∃ after, finish.run.run builder =
        (.ok (builder.problems ++ builder.fragments.filterMap Diagnostic.unclosed?), after) ∧
      after.diagram = builder.diagram := by
  obtain ⟨after, hrun, hproblems, hdiagram⟩ := leaveAll_run htokens
  refine ⟨{ after with isFinished := true }, ?_, hdiagram⟩
  rw [finish, run_bind_ok (checkOpen_run hopen), run_get_bind, run_bind_ok hrun,
    run_bind_ok run_modify, ← hproblems]
  rfl

end Building

end SequenceChart
