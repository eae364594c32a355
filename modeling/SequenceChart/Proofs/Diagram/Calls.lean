import SequenceChart.Proofs.Diagram.Run

namespace SequenceChart

namespace Builder

/-- A call that the owner of a builder can make. Any token may be absent. -/
inductive Call where
  | find (name : String)
  | create (name : String) (label : Option String)
  | ensure (name : String)
  | relabel (name label : String)
  | add (element : Element)
  | addSignal (element : Option Element)
  | activate (name : String)
  | deactivate (name : String) (token : Option Token)
  | openFragment (kind guard : String) (token : Option Token)
  | nextOperand (guard : String) (token : Option Token)
  | closeFragment (token : Option Token)
  | setTitle (title : Option String)
  | report (token : Option Token) (problem : Problem)
  | apply (statement : Statement)
  | finish
  deriving DecidableEq

/-- What a call does. Only whether it is refused is kept of its answer. -/
def Call.perform : Call → Building Unit
  | find name => do
    let _ := (← get).find? name
  | create name label => do
    let _ ← Building.create name label
  | ensure name => do
    let _ ← Building.ensure name
  | relabel name label => do
    let _ ← Building.relabel name label
  | add element => Building.add element
  | addSignal element => Building.addSignal element
  | activate name => Building.activate name
  | deactivate name token => Building.deactivate name token
  | openFragment kind guard token => Building.openFragment kind guard token
  | nextOperand guard token => Building.nextOperand guard token
  | closeFragment token => Building.closeFragment token
  | setTitle title => Building.setTitle title
  | report token problem => Building.report token problem
  | apply statement => Building.apply statement
  | finish => do
    let _ ← Building.finish

/-- Whether a builder refuses a call. -/
def answer (builder : Builder) (call : Call) : Except BuildError Unit :=
  (call.perform.run.run builder).1

/-- The builder after a call, also after one that it refuses. -/
def next (builder : Builder) (call : Call) : Builder :=
  (call.perform.run.run builder).2

/-- The builder after calls, in their order. -/
def afterCalls (builder : Builder) (calls : List Call) : Builder :=
  calls.foldl next builder

variable {builder : Builder}

@[simp] theorem afterCalls_nil : builder.afterCalls [] = builder :=
  rfl

@[simp] theorem afterCalls_cons (call : Call) (calls : List Call) :
    builder.afterCalls (call :: calls) = (builder.next call).afterCalls calls :=
  rfl

theorem afterCalls_append (front back : List Call) :
    builder.afterCalls (front ++ back) = (builder.afterCalls front).afterCalls back :=
  List.foldl_append

/-- What every call keeps, a refused one included, holds after all calls. -/
theorem afterCalls_keeps {P : Builder → Prop} (hnext : ∀ builder call, P builder → P (builder.next call))
    (hbuilder : P builder) (calls : List Call) : P (builder.afterCalls calls) := by
  induction calls generalizing builder with
  | nil => exact hbuilder
  | cons call rest ih => exact ih (hnext builder call hbuilder)

end Builder

end SequenceChart
