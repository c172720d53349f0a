import Stepwise.CubeRoot
import Stepwise.Scenario.Call.Basic

/-!
# Plain operations

Computing, describing errors, positions and things under names, counting,
logging, panicking, repeating, and running on another thread.
-/

namespace Stepwise.Scenario

open Operation

namespace Call

/-- Something as a term, for inspection. -/
def inspect (call : Call) : Operation Value := do
  let name := call.name "name"
  match call.text "what" with
  | "awaiter" =>
      match ← demand (.suspend name 0) with
      | .suspended _ deferred => return inspectReady "Awaiter" (← completeness deferred)
      | reply => pure (replyValue reply)
  | "suspension" =>
      match ← demand (.suspend name 0) with
      | .suspended _ deferred => return inspectReady "Suspension" (← completeness deferred)
      | reply => pure (replyValue reply)
  | "spawner" =>
      match ← demand (.isShutdown name) with
      | .flag shutdown =>
          pure (.text ("Spawner \x7b shutdown: " ++ boolText shutdown ++ " \x7d"))
      | reply => pure (replyValue reply)
  | "handle" =>
      match ← demand (.handle name) with
      | .handle machine finished =>
          pure (.text ("MachineHandle \x7b id: " ++ toString (machineNumber machine) ++
            ", finished: " ++ boolText finished ++ " \x7d"))
      | reply => pure (replyValue reply)
  | "computations" => pure (.text "Computations \x7b .. \x7d")
  | "error" => pure (.text (errorOf (call.arguments.field "err")).inspect)
  | what => pure (problem "BadOp" what)

/-- A computation on a real, with its result in two notations. -/
def compute (call : Call) (computation : Computation) : Value :=
  match computation (realOf call.arguments "x") with
  | .ok result => .record [("ok", .real result), ("text", .text (Binary64.text result))]
  | .error failure => .record [("err", .text failure.message)]

/-- A position in its notations, and the error of a machine that lacks it. -/
def describePosition (call : Call) : Value :=
  let position := positionOf (call.arguments.field "index")
  .record [("display", .text position.text), ("debug", .text position.inspect),
    ("unknown", errorValue position.unknown)]

/-- The memory of a counter. -/
def counterCell (call : Call) : Name := .within 0 ("counter " ++ call.text "c")

/-- Count one more. -/
def count (call : Call) : Operation Value := do
  ExceptT.lift do
    let counted ← Script.loadNat call.counterCell
    Script.storeNat call.counterCell (counted + 1)
  pure .null

/-- How often was counted. -/
def counter (call : Call) : Operation Value := do
  let counted ← ExceptT.lift (Script.loadNat call.counterCell)
  pure (.int counted)

/-- Run operations on a thread of their own. -/
def thread (call : Call) : Operation Value :=
  answering (.thread "thread" (call.callback "do"))

/-- Run operations so many times. -/
def repetition (call : Call) : Operation Value := do
  ExceptT.lift (repeating (call.nested (listOf call.arguments "do")) (call.number "n"))
  pure .null

/-- Any other operation, if the name is one. -/
def plainOperation? (call : Call) (operation : String) : Option (Operation Value) :=
  match operation with
  | "cube" => some (pure (call.compute Computation.cube))
  | "square_root" => some (pure (call.compute Computation.squareRoot))
  | "error" => some (pure (errorValue (errorOf (call.arguments.field "err"))))
  | "step_index" => some (pure call.describePosition)
  | "debug" => some call.inspect
  | "log" => some (pure (.text (call.text "text")))
  | "count" => some call.count
  | "counter" => some call.counter
  | "where" => some (answering .threadName)
  | "panic" => some (Operation.panic (payloadOf call.arguments))
  | "repeat" => some call.repetition
  | "thread" => some call.thread
  | _ => none

end Call

end Stepwise.Scenario
