import SequenceChart.Diagnostic
import SequenceChart.Diagram.Basic
import SequenceChart.Missing
import SequenceChart.Statement.Basic

namespace SequenceChart

/-- Why a builder refuses a call. -/
inductive BuildError where
  | finished
  | emptyName
  | unknownName (name : String)
  | missing (what : Missing)
  | valueless
  | unknownStatement
  deriving DecidableEq

/-- The words of the complaint. One about an unknown name is the name alone, and one about a value
    comes up when that of a token is read that was not given. -/
def BuildError.message : BuildError → String
  | finished => "ModelBuilder has already been finished"
  | emptyName => "participant name must be a non-empty string"
  | unknownName name => Text.quoted name
  | missing what => what.message
  | valueless => "'NoneType' object has no attribute 'value'"
  | unknownStatement => "Unknown statement type: object"

/-- A fragment around the place where a builder inserts: what stands before it in its operand, and
    the operands before the current one, whose guard is known. -/
structure Enclosure where
  before : Body
  kind : String
  finished : Operands
  guard : String
  deriving DecidableEq

/-- The body with the fragment in it, given what the current operand holds. -/
def Enclosure.fill (enclosure : Enclosure) (body : Body) : Body :=
  enclosure.before.push
    (.fragment enclosure.kind (enclosure.finished.push enclosure.guard body))

/-- The body around several fragments, of which the first one is the innermost. -/
def Enclosure.fillAll (enclosures : List Enclosure) (body : Body) : Body :=
  enclosures.foldl (fun inner enclosure => enclosure.fill inner) body

/-- A fragment that waits for its end. The abandoned fragments lie between it and the next open
    one, the first of them innermost. -/
structure OpenFragment where
  enclosure : Enclosure
  token : Option Token
  abandoned : List Enclosure
  deriving DecidableEq

/-- A diagram in the making. The body is what the current operand holds so far. It lies inside the
    abandoned fragments, which are no longer open, and these lie inside the innermost open one.
    Every open activation is listed by its name. -/
structure Builder where
  title : Option String
  participants : List Participant
  guard : String
  opened : List OpenFragment
  abandoned : List Enclosure
  body : Body
  active : List String
  problems : List Diagnostic
  isFinished : Bool
  deriving DecidableEq

/-- A call of a builder. What it did before it was refused stays done. -/
abbrev Building := ExceptT BuildError (StateM Builder)

namespace Builder

/-- A builder that goes on with a diagram. -/
def ofDiagram (diagram : Diagram) : Builder where
  title := diagram.title
  participants := diagram.participants
  guard := diagram.content.guard
  opened := []
  abandoned := []
  body := diagram.content.body
  active := []
  problems := []
  isFinished := false

/-- The content with the fragments closed as they stand. -/
def content (builder : Builder) : Body :=
  builder.opened.foldl
    (fun inner fragment =>
      Enclosure.fillAll fragment.abandoned (fragment.enclosure.fill inner))
    (Enclosure.fillAll builder.abandoned builder.body)

/-- The diagram as it stands. -/
def diagram (builder : Builder) : Diagram where
  title := builder.title
  participants := builder.participants
  content := ⟨builder.guard, builder.content⟩

/-- The first participant with a name. -/
def find? (builder : Builder) (name : String) : Option Participant :=
  builder.participants.find? (·.name = name)

/-- Leaves a fragment, and with it the abandoned ones inside it. -/
def leave (builder : Builder) (fragment : OpenFragment) (outer : List OpenFragment) : Builder :=
  { builder with
    opened := outer
    abandoned := fragment.abandoned
    body := fragment.enclosure.fill (Enclosure.fillAll builder.abandoned builder.body) }

/-- Begins the next operand of a fragment, and leaves the abandoned ones inside it. -/
def turn (builder : Builder) (fragment : OpenFragment) (outer : List OpenFragment)
    (guard : String) : Builder :=
  let body := Enclosure.fillAll builder.abandoned builder.body
  let finished := fragment.enclosure.finished.push fragment.enclosure.guard body
  { builder with
    opened := { fragment with enclosure := { fragment.enclosure with finished, guard } } :: outer
    abandoned := []
    body := .empty }

/-- Gives up a fragment without leaving it. -/
def abandon (builder : Builder) (fragment : OpenFragment) (outer : List OpenFragment) : Builder :=
  { builder with
    opened := outer
    abandoned := builder.abandoned ++ fragment.enclosure :: fragment.abandoned }

/-- Enters a new fragment. -/
def enter (builder : Builder) (kind guard : String) (token : Option Token) : Builder :=
  { builder with
    opened := ⟨⟨builder.body, kind, .none, guard⟩, token, builder.abandoned⟩ :: builder.opened
    abandoned := []
    body := .empty }

end Builder

namespace Building

/-- Refuses a call once the builder is finished. -/
def checkOpen : Building Unit := do
  if (← get).isFinished then throw .finished

/-- Adds a participant, displayed by its name if there is no label. No other participant of the
    name is looked for. -/
def create (name : String) (label : Option String) : Building Participant := do
  checkOpen
  if name = "" then throw .emptyName
  let participant : Participant := ⟨name, ((label.filter (· ≠ "")).getD name)⟩
  modify fun builder => { builder with participants := builder.participants ++ [participant] }
  return participant

/-- The participant of a name, which is added if there is none. -/
def ensure (name : String) : Building Participant := do
  match (← get).find? name with
  | some participant => return participant
  | none => create name none

/-- A list of participants in which the first one of a name has a new label. -/
def relabelFirst (name label : String) : List Participant → List Participant
  | [] => []
  | participant :: rest =>
    if participant.name = name then { participant with label } :: rest
    else participant :: relabelFirst name label rest

/-- Gives a participant a new label. -/
def relabel (name label : String) : Building Participant := do
  checkOpen
  match (← get).find? name with
  | none => throw (.unknownName name)
  | some participant =>
    modify fun builder =>
      { builder with participants := relabelFirst name label builder.participants }
    return { participant with label }

/-- Adds to the current operand. -/
def add (element : Element) : Building Unit := do
  checkOpen
  modify fun builder => { builder with body := builder.body.push element }

/-- Adds a signal, which must be given. -/
def addSignal (element : Option Element) : Building Unit := do
  match element with
  | none => throw (.missing .signal)
  | some element => add element

/-- Records a problem, which must have a token to be attributed to. -/
def report (token : Option Token) (problem : Problem) : Building Unit := do
  match token with
  | none => throw (.missing .token)
  | some token =>
    modify fun builder => { builder with problems := builder.problems ++ [⟨token, problem⟩] }

/-- Begins an activation of a participant. -/
def activate (name : String) : Building Unit := do
  let _ ← ensure name
  modify fun builder => { builder with active := name :: builder.active }
  add (.activation name true)

/-- Ends the last activation of a participant. It is a problem if there is none. -/
def deactivate (name : String) (token : Option Token) : Building Unit := do
  if name ∈ (← get).active then
    modify fun builder => { builder with active := builder.active.erase name }
    add (.activation name false)
  else report token (.notActive name)

/-- Opens a fragment in the current operand. -/
def openFragment (kind guard : String) (token : Option Token) : Building Unit := do
  checkOpen
  modify fun builder => builder.enter kind guard token

/-- Begins the next operand of the innermost open fragment. It is a problem if none is open, and the
    message about it names the value of the token. -/
def nextOperand (guard : String) (token : Option Token) : Building Unit := do
  checkOpen
  match (← get).opened with
  | [] =>
    match token with
    | none => throw .valueless
    | some _ => report token .outsideFragment
  | fragment :: outer => modify fun builder => builder.turn fragment outer guard

/-- Closes the innermost open fragment. It is a problem if none is open. -/
def closeFragment (token : Option Token) : Building Unit := do
  checkOpen
  match (← get).opened with
  | [] => report token .unmatchedClose
  | fragment :: outer => modify fun builder => builder.leave fragment outer

/-- Sets the title, which must be given. The last title counts. -/
def setTitle (title : Option String) : Building Unit := do
  match title with
  | none => throw (.missing .title)
  | some title =>
    checkOpen
    modify fun builder => { builder with title := some title }

/-- Leaves the given open fragments from the innermost on, each of which is a problem. One whose
    problem has no token to be attributed to is abandoned. -/
def leaveAll : List OpenFragment → Building Unit
  | [] => pure ()
  | fragment :: outer => do
    match fragment.token with
    | none => modify fun builder => builder.abandon fragment outer
    | some _ => pure ()
    report fragment.token (.unclosedFragment fragment.enclosure.kind)
    modify fun builder => builder.leave fragment outer
    leaveAll outer

/-- Closes what is still open and finishes the builder. Returns the problems. -/
def finish : Building (List Diagnostic) := do
  checkOpen
  leaveAll (← get).opened
  modify fun builder => { builder with isFinished := true }
  return (← get).problems

/-- The style that an arrow asks for. -/
def styleOf (arrow : String) : LineStyle :=
  if arrow.toList.take 2 = ['-', '-'] then .dashed else .solid

/-- Whether an arrow has a head. -/
def hasHead (arrow : String) : Bool :=
  arrow.toList.getLast? = some '>'

/-- Does what a statement asks for. -/
def apply : Statement → Building Unit
  | .setTitle _ title => setTitle title
  | .declare name label => do
    match (← get).find? name.value with
    | none =>
      let _ ← create name.value (some (Statement.textOf label))
    | some _ =>
      match label with
      | none => pure ()
      | some label =>
        let _ ← relabel name.value label.value
  | .mention name => do
    let _ ← ensure name.value
  | .signal source arrow target label => do
    let _ ← ensure source.value
    let _ ← ensure target.value
    addSignal (some (.signal ⟨source.value, target.value, Statement.textOf label,
      styleOf arrow.value, hasHead arrow.value⟩))
  | .activation keyword name =>
    if keyword.value = Keyword.activate.word then activate name.value
    else deactivate name.value (some keyword)
  | .openFragment keyword label =>
    openFragment keyword.value (Statement.textOf label) (some keyword)
  | .nextOperand keyword label => nextOperand (Statement.textOf label) (some keyword)
  | .closeFragment keyword => closeFragment (some keyword)
  | .unknown => throw .unknownStatement

/-- Does what statements ask for, in order. -/
def applyAll : List Statement → Building Unit
  | [] => pure ()
  | statement :: rest => do
    apply statement
    applyAll rest

end Building

/-- The diagram that statements make of a given one, and the problems with them. -/
def Diagram.build (statements : List Statement) (start : Diagram) :
    Except BuildError (Diagram × List Diagnostic) :=
  let call : Building (List Diagnostic) := do
    Building.applyAll statements
    Building.finish
  match call.run.run (Builder.ofDiagram start) with
  | (.ok problems, builder) => .ok (builder.diagram, problems)
  | (.error error, _) => .error error

end SequenceChart
