import SequenceChart.Diagram.Builder
import SequenceChart.Statement.OfTokens

namespace SequenceChart

/-- Why a text gives no diagram. -/
inductive CompileError where
  | script (error : ScriptError)
  | build (error : BuildError)
  deriving DecidableEq

/-- The diagram of a text and the problems with the text in the order of the source. A line with a
    problem does not keep the others from being drawn. -/
def Diagram.ofText (text : String) : Except CompileError (Diagram × List Diagnostic) := do
  let script ← (Script.ofText text).mapError CompileError.script
  let (diagram, problems) ← (Diagram.build script.statements {}).mapError CompileError.build
  return (diagram, (script.problems ++ problems).mergeSort Diagnostic.precedes)

end SequenceChart
