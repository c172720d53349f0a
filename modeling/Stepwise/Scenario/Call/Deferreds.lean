import Stepwise.Scenario.Call.Basic
import Stepwise.Scenario.Work

/-!
# Operations on deferreds

Making, completing, watching, awaiting and retrieving deferreds, and dispatching
work.
-/

namespace Stepwise.Scenario

open Operation

namespace Call

/-- Dispatch a work. -/
def dispatch (call : Call) : Operation Value := do
  let dispatcher ← dispatcherOf (call.arguments.field "on")
  answering (.dispatch (call.name "d") (call.flag "raw") (call.flag "infallible")
    (dispatcher.target 0) (workOf call.nested (call.arguments.field "work") .null))

/-- Make a waker, which logs that it was woken. -/
def waker (call : Call) : Operation Value :=
  answering (.newWaker (call.name "w") (Script.toCallback do
    let _ ← Script.request (.note (.record [("wake", .text (call.text "w"))]))
    call.nested (listOf call.arguments "do")))

/-- Wait for a deferred on a thread of its own. -/
def wait (call : Call) : Operation Value := do
  match ← demand (.thread "caller" (.call (.wait (call.name "d")) .ret)) with
  | .reference waiter =>
      call.meanwhile
      awaken waiter (call.text "d")
  | reply =>
      call.meanwhile
      pure (replyValue reply)

/-- An operation on deferreds, if the name is one. -/
def deferredOperation? (call : Call) (operation : String) : Option (Operation Value) :=
  let receipt := call.name "d"
  match operation with
  | "pending" => some (answering (.pending receipt (call.flag "raw") receipt))
  | "ready" =>
      some (answering (.ready receipt (call.flag "raw")
        (outcomeOf (call.arguments.field "with"))))
  | "complete" =>
      some (answering (.complete receipt (outcomeOf (call.arguments.field "with"))))
  | "drop_completer" => some (answering (.dropWriter receipt))
  | "to_awaiter" => some (answering (.toAwaiter receipt))
  | "is_ready" => some (answering (.readiness receipt))
  | "on_complete" => some (answering (.onComplete receipt (call.callback "do")))
  | "get" => some (answering (.retrieve receipt))
  | "drop" => some (answering (.dropReceipt receipt))
  | "dispatch" => some call.dispatch
  | "waker" => some call.waker
  | "poll" => some (answering (.poll receipt (call.name "w")))
  | "wait" => some call.wait
  | _ => none

end Call

end Stepwise.Scenario
