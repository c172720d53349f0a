import Stepwise.Error

/-!
# Reading arguments

The arguments of a scenario's operations are values.  An argument that is
missing or of another type reads as a default: an empty text, zero, false.
-/

namespace Stepwise.Scenario

/-- A text argument. -/
def textOf (operation : Value) (name : String) : String := (operation.field name).asText

/-- A number argument. -/
def natOf (operation : Value) (name : String) : Nat := (operation.field name).asNat

/-- A flag argument. -/
def flagOf (operation : Value) (name : String) : Bool := (operation.field name).asFlag

/-- A list argument. -/
def listOf (operation : Value) (name : String) : List Value := (operation.field name).asList

/-- A real argument, in hexadecimal digits. -/
def realOf (operation : Value) (name : String) : Float :=
  Binary64.ofHex (textOf operation name)

/-- A position: `start`, a number, or `finished`. -/
def positionOf : Value → Position
  | .int number => .suspension number.toNat
  | .text "finished" => .finished
  | _ => .notStarted

/-- The panic that an operation or a work specifies. -/
def payloadOf (value : Value) : Payload :=
  match textOf value "payload" with
  | "static" => .text "static panic message"
  | "any" => .other
  | _ => .text (textOf value "msg")

/-- The computation an unavailability is about. -/
def computationOf (name : String) : String :=
  if ["cube", "root", ""].contains name then name else "other"

/-- The breach of protocol that a specification names, if it names one. -/
def violationOf? (specification : Value) : Option Violation :=
  match textOf specification "kind" with
  | "not_ready" => some .notReady
  | "already_taken" => some .alreadyTaken
  | "unknown_step" => some (.unknownStep (positionOf (specification.field "index")))
  | "spurious" => some (.spurious (positionOf (specification.field "index")))
  | "overlap" => some .overlap
  | _ => none

mutual

/-- The error that a specification names, at most so deeply nested. -/
def errorAt (depth : Nat) (specification : Value) : Error :=
  match violationOf? specification with
  | some violation => .invalid violation
  | none =>
      match textOf specification "kind", depth with
      | "work", depth + 1 => .work (failureAt depth (specification.field "of"))
      | "step_panicked", _ =>
          .stepPanicked (positionOf (specification.field "index"))
            (textOf specification "msg")
      | "cancelled", _ => .cancelled
      | _, _ => .shutdown

/-- The failure that a specification names, at most so deeply nested. -/
def failureAt (depth : Nat) (specification : Value) : Failure :=
  match textOf specification "kind", depth with
  | "io", _ => .io (textOf specification "msg")
  | "panicked", _ => .panicked (textOf specification "msg")
  | "negative_root", _ => .negativeRoot (realOf specification "x")
  | "unavailable", _ => .unavailable (computationOf (textOf specification "msg"))
  | "error", depth + 1 => .error (errorAt depth (specification.field "of"))
  | "invalid", depth + 1 =>
      match errorAt depth (specification.field "of") with
      | .invalid violation => .invalid violation
      | error => .error error
  | _, _ => .text (textOf specification "msg")

end

/-- The error that a specification names. -/
def errorOf (specification : Value) : Error := errorAt specification.depth specification

/-- The failure that a specification names. -/
def failureOf (specification : Value) : Failure := failureAt specification.depth specification

/-- The outcome that a specification names. -/
def outcomeOf (specification : Value) : Outcome :=
  if specification.hasField "err" then .error (errorOf (specification.field "err"))
  else .ok (specification.field "ok")

end Stepwise.Scenario
