import Stepwise.Error

/-!
# Diagnostic records

The library reports what it does in records.  A record has a level, a message
and named fields; machines are numbered from one in the order in which they
were started.
-/

namespace Stepwise

/-- Something the library reports about itself. -/
inductive Record where
  | deferredCompleted (continuations : Nat)
  | deferredAbandoned
  | dispatchedAfterShutdown
  | poolGone
  | loopGone
  | loopDiscarded (count : Nat)
  | machineStarted (machine : Nat)
  | resumeIgnored (machine : Nat)
  | resumed (machine : Nat) (position : Position)
  | runningStep (machine : Nat) (position : Position)
  | alreadyComplete (machine : Nat) (position : Position)
  | suspended (machine : Nat) (position : Position)
  | protocolViolated (machine : Nat) (error : Error)
  | machineFinished (machine : Nat)
  | machineFailed (machine : Nat) (error : Error)
  | resumptionDropped (machine : Nat)
  | cancellationRequested (machine : Nat)
  | detachedFinished
  | detachedFailed (error : Error)
  | runtimeStarted (workers : Nat)
  | jobsDropped (count : Nat)
  | runtimeShutDown
  | demoStarted
  | cubeReady (number : Float)
  | rootReady (number : Float)
  | demoFinished

/-- The number under which a machine is reported. -/
def machineNumber (machine : Nat) : Nat := machine + 1

namespace Record

/-- How important a record is. -/
inductive Level where
  | trace
  | debug
  | info
  | warn
  | error
  deriving DecidableEq

/-- The level of a record. -/
def level : Record → Level
  | .deferredCompleted _ => .trace
  | .deferredAbandoned => .warn
  | .dispatchedAfterShutdown => .debug
  | .poolGone => .debug
  | .loopGone => .warn
  | .loopDiscarded _ => .debug
  | .machineStarted _ => .debug
  | .resumeIgnored _ => .trace
  | .resumed _ _ => .trace
  | .runningStep _ _ => .trace
  | .alreadyComplete _ _ => .trace
  | .suspended _ _ => .trace
  | .protocolViolated _ _ => .error
  | .machineFinished _ => .debug
  | .machineFailed _ _ => .debug
  | .resumptionDropped _ => .debug
  | .cancellationRequested _ => .debug
  | .detachedFinished => .debug
  | .detachedFailed _ => .error
  | .runtimeStarted _ => .debug
  | .jobsDropped _ => .debug
  | .runtimeShutDown => .debug
  | .demoStarted => .info
  | .cubeReady _ => .info
  | .rootReady _ => .info
  | .demoFinished => .info

/-- The message of a record. -/
def message : Record → String
  | .deferredCompleted _ => "deferred completed"
  | .deferredAbandoned => "deferred dropped before completion"
  | .dispatchedAfterShutdown => "work dispatched after shutdown"
  | .poolGone => "pool shut down; running continuation inline"
  | .loopGone => "event loop dropped; continuation discarded"
  | .loopDiscarded _ => "event loop dropped with queued continuations"
  | .machineStarted _ => "machine started"
  | .resumeIgnored _ => "resume after finish ignored"
  | .resumed _ _ => "resumed"
  | .runningStep _ _ => "running step"
  | .alreadyComplete _ _ => "already complete"
  | .suspended _ _ => "suspended"
  | .protocolViolated _ _ => "state machine protocol violated"
  | .machineFinished _ => "machine finished"
  | .machineFailed _ _ => "machine failed"
  | .resumptionDropped _ => "resumption dropped before running"
  | .cancellationRequested _ => "cancellation requested"
  | .detachedFinished => "detached machine finished"
  | .detachedFailed _ => "detached machine failed"
  | .runtimeStarted _ => "runtime started"
  | .jobsDropped _ => "dropping jobs queued at shutdown"
  | .runtimeShutDown => "runtime shut down"
  | .demoStarted => "start"
  | .cubeReady _ => "cube ready"
  | .rootReady _ => "square root ready"
  | .demoFinished => "end"

/-- A count as a field. -/
def countField (name : String) (count : Nat) : String × Value := (name, .int count)

/-- The machine a record is about, as a field. -/
def machineField (machine : Nat) : String × Value :=
  ("machine", .int (machineNumber machine))

/-- The error a record is about, as a field. -/
def errorField (error : Error) : String × Value := ("error", .text error.message)

/-- The fields of a record about a machine at a position. -/
def stepFields (machine : Nat) (position : Position) : List (String × Value) :=
  [machineField machine, ("step", .text position.text)]

/-- The named fields of a record. -/
def fields : Record → List (String × Value)
  | .deferredCompleted continuations => [countField "continuations" continuations]
  | .loopDiscarded count => [("discarded", .text (toString count))]
  | .machineStarted machine => [machineField machine]
  | .resumeIgnored machine => [machineField machine]
  | .resumed machine position => stepFields machine position
  | .runningStep machine position => stepFields machine position
  | .alreadyComplete machine position => stepFields machine position
  | .suspended machine position => stepFields machine position
  | .protocolViolated machine error => [machineField machine, errorField error]
  | .machineFinished machine => [machineField machine]
  | .machineFailed machine error => [machineField machine, errorField error]
  | .resumptionDropped machine => [machineField machine]
  | .cancellationRequested machine => [machineField machine]
  | .detachedFailed error => [errorField error]
  | .runtimeStarted workers => [countField "worker_threads" workers]
  | .jobsDropped count => [countField "jobs" count]
  | .cubeReady number => [("result1", .real number)]
  | .rootReady number => [("result2", .real number)]
  | _ => []

end Record

end Stepwise
