import Stepwise.Program

/-!
# Writing answers

Replies, errors and records as values, for the answers and the log of a
scenario.
-/

namespace Stepwise.Scenario

/-- A position as a value. -/
def positionValue : Position → Value
  | .notStarted => .text "start"
  | .suspension number => .int number
  | .finished => .text "finished"

/-- The name of a breach of protocol, and the position it is about. -/
def violationFields : Violation → List (String × Value)
  | .notReady => [("error", .text "NotReady")]
  | .alreadyTaken => [("error", .text "AlreadyTaken")]
  | .unknownStep position =>
      [("error", .text "UnknownStep"), ("step", positionValue position)]
  | .spurious position => [("error", .text "Spurious"), ("step", positionValue position)]
  | .overlap => [("error", .text "Overlap")]

/-- What every error tells: its wording, whether it is fatal, and its cause. -/
def commonFields (error : Error) : List (String × Value) :=
  [("message", .text error.message), ("fatal", .bool error.isFatal),
    ("source", match error.source with
      | some cause => .text cause
      | none => .null)]

mutual

/-- An error as a value. -/
def errorValue (error : Error) : Value :=
  match error with
  | .work failure =>
      .record ([("error", .text "WorkFailure")] ++ failureFields failure ++
        commonFields error)
  | .invalid violation => .record (violationFields violation ++ commonFields error)
  | .stepPanicked position _ =>
      .record ([("error", .text "StepPanicked"), ("step", positionValue position)] ++
        commonFields error)
  | .cancelled => .record ([("error", .text "Cancelled")] ++ commonFields error)
  | .shutdown => .record ([("error", .text "Shutdown")] ++ commonFields error)

/-- What kind of thing failed, and what else is known of it. -/
def failureFields (failure : Failure) : List (String × Value) :=
  match failure with
  | .text _ => [("work", .text "text")]
  | .io _ => [("work", .text "io")]
  | .panicked _ => [("work", .text "Panicked")]
  | .negativeRoot number => [("work", .text "NegativeRoot"), ("x", .real number)]
  | .unavailable _ => [("work", .text "Unavailable")]
  | .error error => [("work", .text "Error"), ("inner", errorValue error)]
  | .invalid _ => [("work", .text "InvalidState")]

end

/-- An outcome as a value. -/
def outcomeValue : Outcome → Value
  | .ok value => .record [("ok", value)]
  | .error error => .record [("err", errorValue error)]

/-- An operation that was not carried out. -/
def problem (kind message : String) : Value :=
  .record [("error", .text kind), ("message", .text message)]

/-- A panic that reached the top. -/
def panicValue : Payload → Value
  | .text message => problem "Panic" message
  | .other => problem "Panic" "<other payload>"

/-- A refusal as a value. -/
def refusalValue : Refusal → Value
  | .noSuch name => problem "NoSuch" name
  | .alreadyAwaiter name => problem "AlreadyAwaiter" name
  | .notAwaiter name => problem "NotAwaiter" name
  | .busy name => problem "Busy" name

/-- A handle as fields. -/
def handleFields (machine : Nat) (finished : Bool) : List (String × Value) :=
  [("id", .int (machineNumber machine)), ("finished", .bool finished)]

/-- A reply as a value. -/
def replyValue : Reply → Value
  | .done => .null
  | .flag value => .bool value
  | .count number => .int number
  | .text content => .text content
  | .names names => .list (names.map .text)
  | .value value => value
  | .outcome outcome => outcomeValue outcome
  | .failure failure => outcomeValue (.error (.work failure))
  | .suspended resumeAt _ => .int resumeAt
  | .readiness true ready => .bool ready
  | .readiness false ready =>
      .record [("awaiter", .bool ready), ("suspension", .bool ready)]
  | .handle machine finished => .record (handleFields machine finished)
  | .reference number => .int number
  | .notYet => .text "pending"
  | .stopped workers =>
      .record [("stopped", .list (workers.map fun (worker : Nat) => .int worker))]
  | .condition done calls => .record [("done", .bool done), ("calls", .int calls)]
  | .panicked payload => panicValue payload
  | .refused refusal => refusalValue refusal

/-- The name of a level. -/
def levelText : Record.Level → String
  | .trace => "TRACE"
  | .debug => "DEBUG"
  | .info => "INFO"
  | .warn => "WARN"
  | .error => "ERROR"

/-- A diagnostic record as an entry of the log. -/
def recordValue (record : Record) : Value :=
  .record [("trace", .text (levelText record.level)), ("msg", .text record.message),
    ("fields", .record record.fields)]

/-- The answer of an operation inside another, as an entry of the log. -/
def answerEntry (operation : String) (answer : Value) : Value :=
  .record [("op", .text operation), ("r", answer)]

end Stepwise.Scenario
