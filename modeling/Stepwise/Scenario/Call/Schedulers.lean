import Stepwise.Scenario.Call.Basic
import Stepwise.Scenario.Work

/-!
# Operations on schedulers

Scheduling continuations, driving event loops, and running or dropping what a
custom scheduler has collected.
-/

namespace Stepwise.Scenario

open Operation

namespace Call

/-- Hand operations to a scheduler. -/
def schedule (call : Call) : Operation Value := do
  let scheduler ← schedulerOf (call.arguments.field "on")
  answering (.schedule scheduler (call.callback "do"))

/-- The clock of a driven loop, in milliseconds: an idle turn waits for ten. -/
def loopClock (_ idle : Nat) : Nat := 10 * idle

/-- The condition that holds from its so-many-th call on. -/
def callCondition (cell : Name) (calls : Nat) : Program :=
  Script.toProgram do
    let called ← Script.loadNat cell
    Script.storeNat cell (called + 1)
    pure (.flag (decide (calls ≤ called + 1)))

/-- Drive a loop until a machine is finished or a number of calls was made. -/
def loopUntil (call : Call) : Operation Value := do
  let deadline := call.number "ms"
  if call.gives "m" then
    match ← demand (.handle (call.name "m")) with
    | .handle machine _ =>
        let condition := Program.call (.isFinished machine) .ret
        match ← demand (.runLoopUntil (call.name "l") deadline loopClock condition) with
        | .condition done _ => pure (.record [("done", .bool done)])
        | reply => pure (replyValue reply)
    | reply => pure (replyValue reply)
  else
    let region ← refer .newRegion
    let condition := callCondition (.within region "calls") (call.number "calls")
    match ← demand (.runLoopUntil (call.name "l") deadline loopClock condition) with
    | .condition done calls =>
        if done || deadline == 0 then pure (replyValue (.condition done calls))
        else pure (.record [("done", .bool done)])
    | reply => pure (replyValue reply)

/-- An operation on schedulers, if the name is one. -/
def schedulerOperation? (call : Call) (operation : String) : Option (Operation Value) :=
  let loop := call.name "l"
  let queue := call.name "q"
  match operation with
  | "schedule" => some call.schedule
  | "loop_new" => some (answering (.newLoop loop))
  | "loop_turn" => some (answering (.turnLoop loop))
  | "loop_run" => some (answering (.runLoop loop))
  | "loop_until" => some call.loopUntil
  | "loop_drop" => some (answering (.dropLoop loop))
  | "manual_new" => some (answering (.newQueue queue))
  | "manual_len" => some (answering (.queueLength queue))
  | "manual_run" => some (answering (.runQueued queue (call.number "i")))
  | "manual_drop" => some (answering (.dropQueued queue (call.number "i")))
  | _ => none

end Call

end Stepwise.Scenario
