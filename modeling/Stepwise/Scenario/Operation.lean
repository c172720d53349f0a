import Stepwise.Scenario.Answer
import Stepwise.Scenario.Reading
import Stepwise.Script

/-!
# Operations as code

An operation of a scenario is code that ends with an answer.  It may stop
early with a problem as its answer, which ends the operation but not the code
around it.
-/

namespace Stepwise.Scenario

/-- Code of an operation that may stop early with its answer. -/
abbrev Operation := ExceptT Value Script

/-- What runs a list of operations inside another one. -/
abbrev Nested := List Value → Script Unit

namespace Operation

/-- Make a request, whatever the reply. -/
def ask (request : Request) : Operation Reply := ExceptT.lift (Script.request request)

/-- Make a request; a refusal is the answer of the operation. -/
def demand (request : Request) : Operation Reply := do
  match ← ask request with
  | .refused refusal => throw (refusalValue refusal)
  | reply => pure reply

/-- Make a request for the number of something. -/
def refer (request : Request) : Operation Nat := do
  match ← demand request with
  | .reference number => pure number
  | reply => throw (replyValue reply)

/-- Make a request and answer its reply. -/
def answering (request : Request) : Operation Value := do
  return replyValue (← ask request)

/-- Panic. -/
def panic {α : Type} (payload : Payload) : Operation α :=
  ExceptT.lift (Script.panic payload)

/-- Add an entry to the log. -/
def note (entry : Value) : Operation Unit := do
  let _ ← ask (.note entry)

/-- Code that ends with the answer of an operation. -/
def answer (operation : Operation Value) : Script Value := do
  match ← operation.run with
  | .ok value => pure value
  | .error problem => pure problem

end Operation

/-- Repeat code so many times. -/
def repeating (body : Script Unit) : Nat → Script Unit
  | 0 => pure ()
  | count + 1 => do
      body
      repeating body count

/-- Do something with every item of a list, in order. -/
def forEach {α : Type} (body : α → Script Unit) : List α → Script Unit
  | [] => pure ()
  | item :: rest => do
      body item
      forEach body rest

/-- The program of a callback that runs a list of operations. -/
def callbackOf (nested : Nested) (operations : List Value) : Program :=
  (nested operations).toCallback

end Stepwise.Scenario
