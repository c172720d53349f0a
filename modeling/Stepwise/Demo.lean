import Stepwise.CubeRoot
import Stepwise.Execution
import Stepwise.Scenario.Settling

/-!
# A run of the demonstration

The demonstration runs on a runtime with two workers: the machine is started,
the main thread waits for its outcome, and the workers do the two computations.
Its transcript has one line per announcement.
-/

namespace Stepwise.Demo

/-- The line of an announcement. -/
def line : Announcement → String
  | .started => "Start"
  | .cube number => "Result1: " ++ Binary64.text number
  | .root number => "Result2: " ++ Binary64.text number
  | .finished => "End"

/-- The hook that notes the line of each announcement. -/
def noting (announcement : Announcement) : Program :=
  .call (.note (.text (line announcement))) .ret

/-- The demonstration on 42, whose first computation may be made to fail. -/
def demo (fails : Bool) (pool : Nat) : Machine :=
  .cubeRoot 42
    (if fails then Computation.work fun _ => .error (.unavailable "cube")
      else Computation.work Computation.cube)
    (Computation.work Computation.squareRoot) (.always (.pool pool)) noting

/-- Start the machine, wait for it, and reply with its outcome. -/
def script (fails : Bool) : Script Reply := do
  let runtime := Name.shared "runtime"
  let outcome := Name.shared "outcome"
  let _ ← Script.request (.newRuntime runtime 2 "worker")
  match ← Script.request (.findPool runtime) with
  | .reference pool =>
      let _ ← Script.request
        (.startAwaitable (.shared "machine") (demo fails pool) .inline outcome false)
      match ← Script.request (.wait outcome) with
      | .reference waiter =>
          Scenario.settle
          Script.request (.collect waiter)
      | reply => pure reply
  | reply => pure reply

/-- The lines noted in a run, in order. -/
def transcript (world : World) : List String :=
  world.history.reverse.filterMap fun
    | .note (.text content) => some content
    | _ => none

/-- What a run of the demonstration prints, and the wording of its error. -/
def run (fails : Bool) : List String × Option String :=
  let final := State.run 1000000 (.ofProgram .initial (script fails).toProgram)
  let problem := match final.ending with
    | .reply (.outcome (.ok _)) => none
    | .reply (.outcome (.error error)) => some error.message
    | .panic payload => some payload.message
    | _ => some "unfinished"
  (transcript final.world, problem)

end Stepwise.Demo
