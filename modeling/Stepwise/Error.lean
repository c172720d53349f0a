import Stepwise.Binary64
import Stepwise.Position
import Stepwise.Text.Quoted
import Stepwise.Value

/-!
# Errors

A result is lost for one of five causes: the deferred work failed, a machine
broke the step protocol, a step panicked, the machine was cancelled, or the
runtime was shut down.  A breach of protocol is *fatal*: no machine may end
with it.  Failed work keeps what failed, and that may itself be an error of any
kind; such a nested breach is an ordinary failure.

The wording of every cause is in `Error.message`, and the cause beneath it, if
there is one, in `Error.source`.
-/

namespace Stepwise

/-- What a panic carries: a message, or something that is not a text. -/
inductive Payload where
  | text (message : String)
  | other
  deriving DecidableEq, Inhabited

/-- The message under which a captured panic is reported. -/
def Payload.message : Payload → String
  | .text message => message
  | .other => "non-string panic payload"

/-- A breach of the protocol between machines, deferreds and their driver. -/
inductive Violation where
  | notReady
  | alreadyTaken
  | unknownStep (position : Position)
  | spurious (position : Position)
  | overlap
  deriving DecidableEq, Inhabited

mutual

/-- Why a deferred or a machine has no value. -/
inductive Error where
  | work (failure : Failure)
  | invalid (violation : Violation)
  | stepPanicked (position : Position) (message : String)
  | cancelled
  | shutdown

/-- Why deferred work has no value. -/
inductive Failure where
  | text (message : String)
  | io (message : String)
  | panicked (message : String)
  | negativeRoot (number : Float)
  | unavailable (computation : String)
  | error (error : Error)
  | invalid (violation : Violation)

end

instance : Inhabited Error := ⟨.cancelled⟩
instance : Inhabited Failure := ⟨.text ""⟩

/-- What a deferred or a machine ends with. -/
abbrev Outcome := Except Error Value

/-- The wording of a breach of protocol. -/
def Violation.message : Violation → String
  | .notReady => "result retrieved before the computation completed"
  | .alreadyTaken => "result was already taken"
  | .unknownStep position => s!"no step exists at {position.text}"
  | .spurious position =>
      s!"resumed at {position.text} before the awaited computation completed"
  | .overlap => "resumed while another resumption of the same machine was running"

mutual

/-- The wording of an error. -/
def Error.message : Error → String
  | .work failure => "deferred work failed: " ++ failure.message
  | .invalid violation => "invalid state: " ++ violation.message
  | .stepPanicked position message => s!"step {position.text} panicked: {message}"
  | .cancelled => "state machine cancelled"
  | .shutdown => "runtime is shut down"

/-- The wording of a failure. -/
def Failure.message : Failure → String
  | .text message => message
  | .io message => message
  | .panicked message => "work panicked: " ++ message
  | .negativeRoot number => "cannot take the square root of " ++ Binary64.text number
  | .unavailable computation => computation ++ " computation unavailable"
  | .error error => error.message
  | .invalid violation => violation.message

end

namespace Error

/-- A breach of protocol, which no machine may end with. -/
def isFatal : Error → Bool
  | .invalid _ => true
  | _ => false

/-- The wording of the cause beneath an error. -/
def source : Error → Option String
  | .work failure => some failure.message
  | .invalid violation => some violation.message
  | _ => none

end Error

/-- The error of a machine asked for a step it does not have. -/
def Position.unknown (position : Position) : Error := .invalid (.unknownStep position)

/-- A breach of protocol as a term, for inspection. -/
def Violation.inspect : Violation → String
  | .notReady => "NotReady"
  | .alreadyTaken => "AlreadyTaken"
  | .unknownStep position => s!"UnknownStep({position.inspect})"
  | .spurious position => s!"Spurious({position.inspect})"
  | .overlap => "Overlap"

mutual

/-- An error as a term, for inspection. -/
def Error.inspect : Error → String
  | .work failure => s!"WorkFailure({failure.inspect})"
  | .invalid violation => s!"InvalidState({violation.inspect})"
  | .stepPanicked position message =>
      "StepPanicked \x7b step: " ++ position.inspect ++ ", message: " ++
        Text.quote message ++ " \x7d"
  | .cancelled => "Cancelled"
  | .shutdown => "Shutdown"

/-- A failure as a term, for inspection. -/
def Failure.inspect : Failure → String
  | .text message => Text.quote message
  | .io message => "Custom \x7b kind: Other, error: " ++ Text.quote message ++ " \x7d"
  | .panicked message => "Panicked \x7b message: " ++ Text.quote message ++ " \x7d"
  | .negativeRoot number => s!"NegativeRoot({Binary64.inspect number})"
  | .unavailable computation => s!"Unavailable({Text.quote computation})"
  | .error error => error.inspect
  | .invalid violation => violation.inspect

end

end Stepwise
