import Stepwise.CubeRoot
import Stepwise.Scenario.Scripted
import Stepwise.Scenario.Work

/-!
# Machines of a scenario

A scenario starts, runs or steps a machine of one of three types: a scripted
one, a pipeline, or the cube-root demonstration.
-/

namespace Stepwise.Scenario

/-- A machine, and what its creation answers besides the handle. -/
structure Specified where
  machine : Machine
  fields : List (String × Value)

/-- The hook of a pipeline: it logs the value, then runs a list of operations. -/
def inspectHook (nested : Nested) (name : String) (operations : List Value)
    (number : Nat) (value : Value) : Program :=
  Script.toCallback do
    let _ ← Script.request
      (.note (.record [("inspect", .int number), ("m", .text name), ("value", value)]))
    nested operations

/-- The pipeline that a specification describes. -/
def pipelineOf (nested : Nested) (name : String) (specification : Value) :
    Operation Specified := do
  let dispatcher ← dispatcherOf (specification.field "on")
  let stages := (listOf specification "stages").map (workOf nested)
  let inspect :=
    if specification.hasField "inspect" then
      inspectHook nested name (listOf specification "inspect")
    else fun _ _ => .ret .done
  pure ⟨.pipeline (specification.field "seed") stages dispatcher inspect,
    [("len", .int stages.length), ("empty", .bool stages.isEmpty)]⟩

/-- The computation that a specification puts in place of another. -/
def replacement (name key : String) (usual : Computation) : Float → Program :=
  match name with
  | "unavailable" => Computation.work fun _ => .error (.unavailable key)
  | "panic" => fun _ => .panic (.text "computation exploded")
  | "identity" => Computation.work fun number => .ok number
  | "negate" => Computation.work fun number => .ok (-number)
  | "cube" => Computation.work Computation.cube
  | "square_root" => Computation.work Computation.squareRoot
  | _ => Computation.work usual

/-- The name of an announcement, and the number it is about. -/
def announcementFields : Announcement → String × Value
  | .started => ("Started", .null)
  | .cube number => ("Cube", .real number)
  | .root number => ("Root", .real number)
  | .finished => ("Finished", .null)

/-- The hook of the demonstration: it logs the announcement, then runs the
operations listed for its kind. -/
def announcementHook (nested : Nested) (name : String) (events : Value)
    (announcement : Announcement) : Program :=
  Script.toCallback do
    let (kind, number) := announcementFields announcement
    let _ ← Script.request
      (.note (.record [("event", .text kind), ("m", .text name), ("x", number)]))
    nested (listOf events kind)

/-- The demonstration that a specification describes. -/
def cubeRootOf (nested : Nested) (name : String) (specification : Value) :
    Operation Specified := do
  let dispatcher ← dispatcherOf (specification.field "on")
  let events := specification.field "events"
  let announce :=
    if events.asText == "default" then CubeRoot.recording
    else announcementHook nested name events
  let cube := replacement (textOf specification "cube") "cube" Computation.cube
  let root := replacement (textOf specification "root") "root" Computation.squareRoot
  pure ⟨.cubeRoot (realOf specification "x") cube root dispatcher announce, []⟩

/-- The machine that a specification describes. -/
def machineOf (perform : Value → Script Unit) (nested : Nested) (name : String)
    (specification : Value) : Operation Specified := do
  match textOf specification "type" with
  | "pipeline" => pipelineOf nested name specification
  | "cube" => cubeRootOf nested name specification
  | _ =>
      let region ← Operation.refer .newRegion
      pure ⟨scriptedMachine perform name specification region, []⟩

/-- The closure that is told the outcome of a machine: it logs it, then runs a
list of operations. -/
def loggingObserver (nested : Nested) (name : String) (operations : List Value)
    (outcome : Outcome) : Program :=
  Script.toCallback do
    let _ ← Script.request
      (.note (.record [("observer", .text name), ("outcome", outcomeValue outcome)]))
    nested operations

/-- The observer of a detached machine, which only reports. -/
def detachedObserver : Outcome → Program
  | .ok _ => .call (.record .detachedFinished) .ret
  | .error error => .call (.record (.detachedFailed error)) .ret

end Stepwise.Scenario
