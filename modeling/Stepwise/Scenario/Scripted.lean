import Stepwise.Scenario.Operation

/-!
# Scripted machines

A scripted machine is given by lists of operations, one list or several per
position.  Entering a step is logged.  Besides ordinary operations a step may
set its result, retrieve awaited outcomes, and end at once with an error; the
last result set is the step's.

The machine remembers an integer, the last error it retrieved, and how often
each position was entered.
-/

namespace Stepwise.Scenario

/-- The key of a position in a script. -/
def positionKey : Position → String
  | .notStarted => "start"
  | .suspension number => toString number
  | .finished => "finished"

/-- What a scripted step works with: how to run ordinary operations and lists
of step operations, the machine's memory, and the position. -/
structure StepContext where
  perform : Value → Script Unit
  performStep : List Value → Option Reply → Script (Option Reply)
  region : Nat
  position : Position

namespace StepContext

/-- The panic of a step that asks for a receipt it does not have. -/
def noAwaiter {α : Type} (name : String) : Script α :=
  Script.panic (.text s!"no awaiter {name}")

/-- Retrieve the outcome behind a name. -/
def retrieve (name : String) : Script Outcome := do
  match ← Script.request (.retrieve (.shared name)) with
  | .outcome outcome => pure outcome
  | _ => noAwaiter name

/-- Retrieve the value behind a name, or end the step with its error. -/
def retrieveValue (name : String) : Script Value := do
  match ← retrieve name with
  | .ok value => pure value
  | .error error => Script.exit (.outcome (.error error))

/-- The memory of the machine's integer. -/
def sumCell (context : StepContext) : Name := .within context.region "sum"

/-- The memory of the machine's last error. -/
def errorCell (context : StepContext) : Name := .within context.region "error"

/-- The machine's integer; zero at first. -/
def loadSum (context : StepContext) : Script Int := do
  match ← Script.request (.load context.sumCell) with
  | .outcome (.ok value) => pure value.asInt
  | _ => pure 0

/-- Add to the machine's integer, within a signed 64-bit word. -/
def addToSum (context : StepContext) (value : Value) : Script Unit := do
  let sum ← context.loadSum
  let addend := if fitsWord value.asInt then value.asInt else 0
  let _ ← Script.request
    (.store context.sumCell (.ok (.int (Int.bmod (sum + addend) UInt64.size))))

/-- End the step with the error the machine remembers, which is used up. -/
def rethrow (context : StepContext) : Script (Option Reply) := do
  match ← Script.request (.load context.errorCell) with
  | .outcome (.error error) =>
      let _ ← Script.request (.store context.errorCell (.ok .null))
      Script.exit (.outcome (.error error))
  | _ => Script.panic (.text "nothing to rethrow")

/-- Retrieve an outcome, log it, and go on with the list for it. -/
def tryGet (context : StepContext) (operation : Value) (result : Option Reply) :
    Script (Option Reply) := do
  let outcome ← retrieve (textOf operation "d")
  let _ ← Script.request (.note (answerEntry "try_get" (outcomeValue outcome)))
  match outcome with
  | .ok _ => context.performStep (listOf operation "ok") result
  | .error error =>
      let _ ← Script.request (.store context.errorCell (.error error))
      context.performStep (listOf operation "err") result

/-- Run one operation of a step, given the result set so far. -/
def operate (context : StepContext) (operation : Value) (result : Option Reply) :
    Script (Option Reply) := do
  match textOf operation "op" with
  | "suspend" =>
      let name := textOf operation "d"
      match ← Script.request (.suspend (.shared name) (natOf operation "at")) with
      | .suspended resumeAt deferred => pure (some (.suspended resumeAt deferred))
      | _ => noAwaiter name
  | "done" => pure (some (.outcome (.ok (operation.field "value"))))
  | "done_acc" => do
      let sum ← context.loadSum
      pure (some (.outcome (.ok (.int sum))))
  | "done_get" => do
      let value ← retrieveValue (textOf operation "d")
      pure (some (.outcome (.ok value)))
  | "add_get" => do
      let value ← retrieveValue (textOf operation "d")
      context.addToSum value
      pure result
  | "try_get" => context.tryGet operation result
  | "rethrow" => context.rethrow
  | "fail" => Script.exit (.outcome (.error (errorOf (operation.field "err"))))
  | "unknown" => Script.exit (.outcome (.error context.position.unknown))
  | _ => do
      context.perform operation
      pure result

end StepContext

/-- Run the operations of a step, at most so deeply nested. -/
def performStepAt (perform : Value → Script Unit) (region : Nat) (position : Position) :
    Nat → List Value → Option Reply → Script (Option Reply)
  | 0, _, result => pure result
  | depth + 1, operations, result =>
      let context : StepContext :=
        ⟨perform, performStepAt perform region position depth, region, position⟩
      operations.foldlM (fun result operation => context.operate operation result) result

/-- The list of operations for this visit of a position. -/
def visitedList (steps : List Value) (visits : Nat) : List Value :=
  match steps with
  | .list first :: rest =>
      ((Value.list first :: rest)[min visits rest.length]?.map (·.asList)).getD []
  | operations => operations

/-- The step of a scripted machine at a position. -/
def scriptedStep (perform : Value → Script Unit) (name : String) (specification : Value)
    (region : Nat) (position : Position) : Script Reply := do
  let key := positionKey position
  let _ ← Script.request
    (.note (.record [("step", .text key), ("m", .text name)]))
  let steps := specification.field "steps"
  if steps.hasField key then
    let cell := Name.within region s!"visits {key}"
    let visits ← match ← Script.request (.load cell) with
      | .outcome (.ok value) => pure value.asNat
      | _ => pure 0
    let _ ← Script.request (.store cell (.ok (.int (visits + 1))))
    let operations := visitedList (listOf steps key) visits
    match ← performStepAt perform region position specification.depth operations none with
    | some result => pure result
    | none => Script.panic (.text "step ended without outcome")
  else
    pure (.outcome (.error position.unknown))

/-- A scripted machine, with a region of memory of its own. -/
def scriptedMachine (perform : Value → Script Unit) (name : String)
    (specification : Value) (region : Nat) : Machine :=
  .custom fun position =>
    (scriptedStep perform name specification region position).toProgram

end Stepwise.Scenario
