import SequenceChart.Drawing.Basic

namespace SequenceChart

/-- The kinds of calls, those for dashed lines and arrows apart from the others. -/
inductive CallKind where
  | rectangle
  | fill
  | line
  | dashedLine
  | arrow
  | dashedArrow
  | text
  | measure
  | push
  | pop
  deriving DecidableEq

/-- The kind of a call. -/
def Call.kind {α : Type} : Call α → CallKind
  | rectangle .. => .rectangle
  | fill .. => .fill
  | line dashed .. => if dashed then .dashedLine else .line
  | arrow dashed .. => if dashed then .dashedArrow else .arrow
  | text .. => .text
  | measure .. => .measure
  | push .. => .push
  | pop => .pop

/-- How many more pushes than pops a call adds. -/
def Call.descent {α : Type} : Call α → Int
  | push .. => 1
  | pop => -1
  | _ => 0

/-- A failure planned for one call: the one that is the given number among those of its kind,
    counted from one. -/
structure Breakdown where
  kind : CallKind
  nth : Int
  deriving DecidableEq

/-- The failure of a surface that breaks down. -/
inductive SurfaceFailure where
  | backend
  deriving DecidableEq

/-- The words of the complaint. -/
def SurfaceFailure.message : SurfaceFailure → String
  | backend => "backend failure"

/-- What a recording surface has seen: the completed calls other than questions for sizes, how many
    more pushes than pops, and how often a breakdown could have come. -/
structure Recorder (α : Type) where
  calls : List (Call α) := []
  depth : Int := 0
  chances : Int := 0
  deriving DecidableEq

namespace Recorder

variable {α : Type}

/-- The recorder after a completed call. -/
def record (recorder : Recorder α) (call : Call α) : Recorder α :=
  { recorder with
    calls := if call.kind = .measure then recorder.calls else recorder.calls ++ [call]
    depth := recorder.depth + call.descent }

/-- A surface that records calls, and breaks down at one of them if that is planned. -/
def surface (breakdown : Option Breakdown) : Surface α (Recorder α) SurfaceFailure := fun call => do
  match breakdown with
  | none => modify (record · call)
  | some planned =>
    if call.kind = planned.kind then
      modify fun recorder => { recorder with chances := recorder.chances + 1 }
      if (← get).chances = planned.nth then throw .backend
    modify (record · call)

end Recorder

end SequenceChart
