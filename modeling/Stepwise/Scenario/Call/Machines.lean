import Stepwise.Scenario.Call.Basic
import Stepwise.Scenario.Machine

/-!
# Operations on machines

Starting, watching and cancelling machines, and stepping one by hand.
-/

namespace Stepwise.Scenario

open Operation

namespace Call

/-- Start a machine under a handle with the observer that the arguments name. -/
def startWith (call : Call) (machine : Machine) (scheduler : Scheduler) : Script Reply := do
  let handle := call.name "m"
  match call.text "observer" with
  | "detached" => Script.request (.start handle machine scheduler detachedObserver)
  | "awaitable" =>
      Script.request (.startAwaitable handle machine scheduler (call.name "d") false)
  | "promise" =>
      Script.request (.startAwaitable handle machine scheduler (call.name "d") true)
  | _ =>
      Script.request (.start handle machine scheduler
        (loggingObserver call.nested (call.text "m") (listOf call.arguments "then")))

/-- Start a machine. -/
def start (call : Call) : Operation Value := do
  let specified ← machineOf call.perform call.nested (call.text "m")
    (call.arguments.field "machine")
  let reply ←
    if call.gives "rt" then
      demand (.enter (call.name "rt") (call.startWith specified.machine .inline).toProgram)
    else do
      let scheduler ← schedulerOf (call.arguments.field "sched")
      ExceptT.lift (call.startWith specified.machine scheduler)
  match reply with
  | .handle machine finished =>
      pure (.record (handleFields machine finished ++ specified.fields))
  | reply => pure (replyValue reply)

/-- Keep a machine without starting it. -/
def newMachine (call : Call) : Operation Value := do
  let specified ← machineOf call.perform call.nested (call.text "m")
    (call.arguments.field "machine")
  let _ ← demand (.newMachine (call.name "m") specified.machine)
  pure (.record specified.fields)

/-- Call one step of a machine. -/
def stepMachine (call : Call) : Operation Value := do
  let position := positionOf (call.arguments.field "index")
  match ← demand (.stepMachine (call.name "m") position) with
  | .outcome (.ok value) => pure (.record [("complete", value)])
  | .outcome (.error error) => pure (.record [("err", errorValue error)])
  | .suspended resumeAt deferred =>
      let ready ← completeness deferred
      let inspected := "Await \x7b resume_at: " ++ toString resumeAt ++
        ", on: Suspension \x7b ready: " ++ boolText ready ++ " \x7d \x7d"
      pure (.record [("await", .int resumeAt), ("ready", .bool ready),
        ("debug", .text inspected)])
  | reply => pure (replyValue reply)

/-- An operation on machines, if the name is one. -/
def machineOperation? (call : Call) (operation : String) : Option (Operation Value) :=
  let handle := call.name "m"
  match operation with
  | "start" => some call.start
  | "cancel" => some (answering (.cancel handle))
  | "handle" => some (answering (.handle handle))
  | "drop_handle" => some (answering (.dropHandle handle))
  | "machine_new" => some call.newMachine
  | "machine_step" => some call.stepMachine
  | "machine_drop" => some (answering (.dropMachine handle))
  | _ => none

end Call

end Stepwise.Scenario
