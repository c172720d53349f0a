import Stepwise.Scenario.Call.Deferreds
import Stepwise.Scenario.Call.Machines
import Stepwise.Scenario.Call.Plain
import Stepwise.Scenario.Call.Runtimes
import Stepwise.Scenario.Call.Schedulers

/-!
# The operations of a scenario

Every operation belongs to a family by its name.  Operations inside another one
log their answers; the depth of a scenario bounds how deeply they are nested.
-/

namespace Stepwise.Scenario

open Operation

namespace Call

/-- The operation of a name. -/
def operation (call : Call) (operation : String) : Operation Value :=
  call.deferredOperation? operation
    |>.orElse (fun _ => call.schedulerOperation? operation)
    |>.orElse (fun _ => call.runtimeOperation? operation)
    |>.orElse (fun _ => call.machineOperation? operation)
    |>.orElse (fun _ => call.plainOperation? operation)
    |>.getD (pure (problem "BadOp" operation))

end Call

/-- Run an operation and log its answer, except that counting logs nothing. -/
def logged (operation : String) (body : Operation Value) : Script Unit := do
  let answer ← body.answer
  if operation == "count" then pure ()
  else
    let _ ← Script.request (.note (answerEntry operation answer))

/-- Run an operation inside another one, at most so deeply nested. -/
def performAt : Nat → Value → Script Unit
  | 0, _ => pure ()
  | depth + 1, arguments =>
      let operation := textOf arguments "op"
      let call : Call := ⟨performAt depth, forEach (performAt depth), arguments⟩
      logged operation (call.operation operation)

/-- An operation at the top, with the operations inside it. -/
def topLevel (arguments : Value) : Script Value :=
  let depth := arguments.depth
  let call : Call := ⟨performAt depth, forEach (performAt depth), arguments⟩
  (call.operation (textOf arguments "op")).answer

end Stepwise.Scenario
