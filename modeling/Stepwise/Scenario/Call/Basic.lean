import Stepwise.Scenario.Operation
import Stepwise.Scenario.Settling

/-!
# Calls of operations

A call is an operation together with how to run the operations listed inside
it.  This module has what the families of operations share: reading arguments,
and what happens while another thread is blocked.
-/

namespace Stepwise.Scenario

open Operation

/-- What an operation works with: how to run other operations, one by one or
listed, and its arguments. -/
structure Call where
  perform : Value → Script Unit
  nested : Nested
  arguments : Value

namespace Call

/-- A text argument. -/
def text (call : Call) (name : String) : String := textOf call.arguments name

/-- An argument that is the name of something. -/
def name (call : Call) (argument : String) : Name := .shared (call.text argument)

/-- A number argument. -/
def number (call : Call) (name : String) : Nat := natOf call.arguments name

/-- A flag argument. -/
def flag (call : Call) (name : String) : Bool := flagOf call.arguments name

/-- A callback that runs the operations of a list argument. -/
def callback (call : Call) (name : String) : Program :=
  callbackOf call.nested (listOf call.arguments name)

/-- Whether an argument is given. -/
def gives (call : Call) (name : String) : Bool := !(call.arguments.field name).isNull

/-- While another thread is blocked, run a list of operations and settle. -/
def meanwhile (call : Call) : Operation Unit := do
  match ← ask (.attempt (call.callback "then")) with
  | .panicked payload => note (answerEntry "then" (panicValue payload))
  | _ => pure ()
  ExceptT.lift settle

/-- What a blocked thread answers. -/
def awaken (waiter : Nat) (blocked : String) : Operation Value := do
  match ← ask (.collect waiter) with
  | .notYet => pure (problem "WouldBlock" blocked)
  | reply => pure (replyValue reply)

/-- A truth value as a term. -/
def boolText (flag : Bool) : String := if flag then "true" else "false"

/-- Whether a deferred is complete. -/
def completeness (deferred : Nat) : Operation Bool := do
  return (← ask (.isComplete deferred)).asFlag

/-- A term with one truth value, or with a number before it. -/
def inspectReady (kind : String) (ready : Bool) : Value :=
  .text (kind ++ " \x7b ready: " ++ boolText ready ++ " \x7d")

end Call

end Stepwise.Scenario
