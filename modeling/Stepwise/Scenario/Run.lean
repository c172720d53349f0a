import Stepwise.Execution
import Stepwise.Scenario.Call

/-!
# Running scenarios

A scenario is a list of operations.  They run one after the other in one world,
each until it has answered or panicked and the pools have settled.  The answer
of a scenario has one entry per operation: what it answered, and what was
logged meanwhile.
-/

namespace Stepwise.Scenario

/-- More steps than any scenario takes. -/
def enoughSteps : Nat := 1000000000000

/-- The answer of a run that has ended. -/
def endingValue : State.Ending → Value
  | .reply reply => replyValue reply
  | .panic payload => panicValue payload
  | .halted .doublePanic => problem "Halted" "panic while dropping during a panic"
  | .halted .deadlock => problem "Halted" "deadlock"
  | .unfinished => problem "Halted" "unfinished"

/-- An event as an entry of the log, if it is shown. -/
def eventValue? (tracing : Bool) : Event → Option Value
  | .note entry => some entry
  | .record record => if tracing then some (recordValue record) else none

/-- The entries of the log that were added since so many events. -/
def logSince (tracing : Bool) (count : Nat) (world : World) : List Value :=
  let added := world.history.take (world.history.length - count)
  added.reverse.filterMap (eventValue? tracing)

/-- Run one operation, let the pools settle, and give its answer with its log. -/
def runOperation (tracing : Bool) (world : World) (operation : Value) : World × Value :=
  let program := (topLevel operation fun answer => .ret (.value answer))
  let ran := State.run enoughSteps (.ofProgram world program)
  let settled := State.run enoughSteps (.ofProgram ran.world settle.toCallback)
  let log := logSince tracing world.history.length settled.world
  (settled.world, .record [("r", endingValue ran.ending), ("log", .list log)])

/-- Run operations one after the other. -/
def runOperations (tracing : Bool) : World → List Value → List Value
  | _, [] => []
  | world, operation :: rest =>
      let (after, answer) := runOperation tracing world operation
      answer :: runOperations tracing after rest

/-- Run a scenario. -/
def run (scenario : Value) : Value :=
  let tracing := flagOf scenario "trace"
  .record [("steps", .list (runOperations tracing .initial (listOf scenario "ops")))]

end Stepwise.Scenario
