import Stepwise.Scenario.Operation

/-!
# Works, dispatchers and schedulers

How a scenario specifies what is computed off the current thread, where it
runs, and where continuations are sent.
-/

namespace Stepwise.Scenario

/-- The result of integer arithmetic in a signed 64-bit word. -/
def wordResult (number : Int) : Reply :=
  if fitsWord number then .outcome (.ok (.int number))
  else .failure (.text "integer overflow")

/-- Arithmetic on an input that has to be an integer. -/
def arithmetic (compute : Int → Int) (input : Value) : Reply :=
  match input with
  | .int number =>
      if fitsWord number then wordResult (compute number)
      else .failure (.text "not an integer")
  | _ => .failure (.text "not an integer")

/-- How a work ends, after what it does. -/
def workEnd (specification input : Value) : Script Reply :=
  if specification.hasField "ret" then
    pure (.outcome (.ok (specification.field "ret")))
  else if specification.hasField "add" then
    pure (arithmetic (· + (specification.field "add").asInt) input)
  else if specification.hasField "mul" then
    pure (arithmetic (· * (specification.field "mul").asInt) input)
  else if specification.hasField "append" then
    match input with
    | .text content =>
        pure (.outcome (.ok (.text (content ++ textOf specification "append"))))
    | _ => pure (.failure (.text "not a string"))
  else if specification.hasField "fail" then
    pure (.failure (failureOf (specification.field "fail")))
  else if specification.hasField "panic" then
    Script.panic (payloadOf (specification.field "panic"))
  else
    pure (.outcome (.ok input))

/-- A work on an input. -/
def workOf (nested : Nested) (specification input : Value) : Program :=
  Script.toProgram do
    nested (listOf specification "do")
    workEnd specification input

/-- The dispatcher that a specification names. -/
def dispatcherOf (specification : Value) : Operation Dispatcher := do
  match specification with
  | .text "immediate" => pure (.always .immediate)
  | .text "context" => pure (.always .context)
  | _ =>
      if specification.hasField "mixed" then
        let pool ← Operation.refer (.findPool (.shared (textOf specification "mixed")))
        pure (.planned pool ((listOf specification "plan").map (·.asFlag)))
      else if specification.hasField "spawner" then
        let pool ← Operation.refer (.findPool (.shared (textOf specification "spawner")))
        pure (.always (.pool pool))
      else if specification.hasField "runtime" then
        let pool ← Operation.refer (.findPool (.shared (textOf specification "runtime")))
        pure (.always (.pool pool))
      else
        pure (.always .immediate)

/-- The scheduler that a specification names; inline if it names none. -/
def schedulerOf (specification : Value) : Operation Scheduler := do
  match specification with
  | .text "discard" => pure .discard
  | .text _ => pure .inline
  | _ =>
      if specification.hasField "spawner" then
        return .pool (← Operation.refer (.findPool (.shared (textOf specification "spawner"))))
      else if specification.hasField "loop" then
        return .loop (← Operation.refer (.findLoop (.shared (textOf specification "loop"))))
      else if specification.hasField "manual" then
        return .queue
          (← Operation.refer (.findQueue (.shared (textOf specification "manual"))))
      else
        pure .inline

end Stepwise.Scenario
