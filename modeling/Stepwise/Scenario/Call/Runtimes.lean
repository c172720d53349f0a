import Stepwise.Scenario.Call.Basic
import Stepwise.Scenario.Machine

/-!
# Operations on runtimes

Making, holding and dropping runtimes, and running code and machines inside
them.
-/

namespace Stepwise.Scenario

open Operation

namespace Call

/-- Make a runtime. -/
def newRuntime (call : Call) : Operation Value := do
  let workers := if call.gives "threads" then call.number "threads" else 1
  let threadName := if call.gives "name" then call.text "name" else "resumable-worker"
  let reply ← ask (.newRuntime (call.name "rt") workers threadName)
  ExceptT.lift (setHeld (call.text "rt") false)
  pure (replyValue reply)

/-- Hold a runtime, or release it. -/
def hold (call : Call) (held : Bool) : Operation Value := do
  let _ ← refer (.findPool (call.name "rt"))
  ExceptT.lift (setHeld (call.text "rt") held)
  pure .null

/-- Run operations inside a runtime. -/
def enter (call : Call) : Operation Value :=
  answering (.enter (call.name "rt") (call.callback "do"))

/-- Run a machine on a runtime from a thread of its own, and wait for it. -/
def run (call : Call) : Operation Value := do
  let specified ← machineOf call.perform call.nested (call.text "m")
    (call.arguments.field "machine")
  match ← demand (.run "caller" (call.name "rt") specified.machine) with
  | .reference waiter =>
      call.meanwhile
      awaken waiter (call.text "m")
  | reply =>
      call.meanwhile
      pure (replyValue reply)

/-- The results of as many jobs as workers, each on its own worker. -/
def parallel (call : Call) : Operation Value :=
  let workers := call.number "threads"
  if workers = 0 then Operation.panic (.text "worker_threads must be > 0")
  else pure (.list ((List.range workers).map fun (number : Nat) => .int (2 * number)))

/-- An operation on runtimes, if the name is one. -/
def runtimeOperation? (call : Call) (operation : String) : Option (Operation Value) :=
  let runtime := call.name "rt"
  match operation with
  | "rt_new" => some call.newRuntime
  | "rt_drop" => some (answering (.dropRuntime runtime))
  | "hold" => some (call.hold true)
  | "release" => some (call.hold false)
  | "is_shutdown" => some (answering (.isShutdown runtime))
  | "enter" => some call.enter
  | "run" => some call.run
  | "parallel" => some call.parallel
  | _ => none

end Call

end Stepwise.Scenario
