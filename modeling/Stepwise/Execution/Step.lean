import Stepwise.Execution.Frame

/-!
# The steps of machines

A step reads and changes the body of its machine and ends with a reply.  Steps
of a custom machine are programs.  Those of a pipeline take the outcome they
awaited, show it to the hook, and launch the next stage; those of the
demonstration do the same between announcements.
-/

namespace Stepwise

namespace World

/-- Add a deferred. -/
def newDeferred (world : World) : World × Nat :=
  ({ world with deferreds := world.deferreds.push .fresh }, world.deferreds.size)

/-- Take the result of a deferred. -/
def retrieve (world : World) (deferred : Nat) : World × Outcome :=
  match world.deferreds.get? deferred with
  | none => (world, .error (.invalid .notReady))
  | some found => (world.modifyDeferred deferred (·.afterRetrieval), found.retrieved)

end World

namespace State

/-- The panic of free dispatch outside every runtime. -/
def outsideRuntime (infallible : Bool) : String :=
  (if infallible then "dispatch" else "try_dispatch") ++
    " must be called within the context of a runtime"

/-- Dispatch work on a fresh deferred: run it now, or queue it as a job that owns
the writer.  What waits for the dispatch is told the deferred. -/
def dispatching (world : World) (stack : Stack) (target : Target) (infallible : Bool)
    (work : Program) (waiting : Nat → Stack) : State :=
  let (added, deferred) := world.newDeferred
  let queueing (pool : Nat) : State :=
    if world.acceptsJobs pool then
      .replying (added.modifyPool pool (·.push (.job deferred work))) (waiting deferred) .done
    else
      ⟨added, .recording .dispatchedAfterShutdown :: waiting deferred,
        .task (.discard (.continuation (.job deferred work)))⟩
  match target with
  | .immediate => ⟨added, .working deferred :: waiting deferred, .program work⟩
  | .pool pool => queueing pool
  | .context =>
      match world.thread.context with
      | some pool => queueing pool
      | none => .panicking world stack (outsideRuntime infallible)

/-- A step that has no place in the body. -/
def unknownStep (world : World) (stack : Stack) (position : Position) : State :=
  .replying world stack (.outcome (.error position.unknown))

/-- Take an outcome that was awaited.  The step ends with its error, or goes on
with its value. -/
def takingAwaited (world : World) (stack : Stack) (deferred : Nat)
    (proceed : World → Value → State) : State :=
  let (taken, outcome) := world.retrieve deferred
  match outcome with
  | .ok value => proceed taken value
  | .error error => .replying taken stack (.outcome (.error error))

/-- Launch the stage of a pipeline at a number. -/
def launchingStage (world : World) (stack : Stack) (place : Place) (pipeline : Pipeline)
    (number : Nat) (input : Value) : State :=
  match pipeline.stage? number with
  | none => .unknownStep world stack (.suspension number)
  | some stage =>
      let used := world.modifyBody place fun _ => .pipeline (pipeline.useStage number)
      .dispatching used stack (pipeline.dispatcher.target pipeline.dispatched) false
        (stage input) fun deferred => .launched place number deferred :: stack

/-- The step of a pipeline at a position. -/
def steppingPipeline (world : World) (stack : Stack) (place : Place) (pipeline : Pipeline) :
    Position → State
  | .notStarted =>
      match pipeline.seed with
      | none => .unknownStep world stack .notStarted
      | some seed =>
          let begun := { pipeline with seed := none }
          let moved := world.modifyBody place fun _ => .pipeline begun
          if pipeline.stages.isEmpty then .replying moved stack (.outcome (.ok seed))
          else .launchingStage moved stack place begun 0 seed
  | .suspension number =>
      match pipeline.awaited with
      | none => .unknownStep world stack (.suspension number)
      | some deferred =>
          let resumed := world.modifyBody place fun _ =>
            .pipeline { pipeline with awaited := none }
          .takingAwaited resumed stack deferred fun taken value =>
            ⟨taken, .inspected place number value :: stack,
              .program (pipeline.inspect number value)⟩
  | .finished => .unknownStep world stack .finished

/-- A pipeline's value has been seen: launch the next stage, or end with it. -/
def inspectedValue (world : World) (stack : Stack) (place : Place) (number : Nat)
    (value : Value) : State :=
  match world.body? place with
  | some (.pipeline pipeline) =>
      match pipeline.following? number with
      | some next => .launchingStage world stack place pipeline next value
      | none => .replying world stack (.outcome (.ok value))
  | _ => .replying world stack (.outcome (.ok value))

/-- Launch a work of the demonstration, to be awaited at a suspension. -/
def launchingWork (world : World) (stack : Stack) (place : Place) (demo : CubeRoot)
    (number : Nat) (work : Program) : State :=
  let counted := world.modifyBody place fun _ =>
    .cubeRoot { demo with dispatched := demo.dispatched + 1 }
  .dispatching counted stack (demo.dispatcher.target demo.dispatched) false work
    fun deferred => .launched place number deferred :: stack

/-- Tell the hook of the demonstration, and go on when it has heard. -/
def announcing (world : World) (stack : Stack) (place : Place) (demo : CubeRoot)
    (announcement : Announcement) : State :=
  ⟨world, .announced place announcement :: stack, .program (demo.announce announcement)⟩

/-- The step of the demonstration at a position. -/
def steppingCubeRoot (world : World) (stack : Stack) (place : Place) (demo : CubeRoot) :
    Position → State
  | .notStarted => .announcing world stack place demo .started
  | .suspension 0 =>
      match demo.awaitedCube with
      | none => .unknownStep world stack (.suspension 0)
      | some deferred =>
          let resumed := { demo with awaitedCube := none }
          let moved := world.modifyBody place fun _ => .cubeRoot resumed
          .takingAwaited moved stack deferred fun taken value =>
            let cubed := { resumed with cubed := CubeRoot.realOf value }
            let kept := taken.modifyBody place fun _ => .cubeRoot cubed
            .announcing kept stack place cubed (.cube cubed.cubed)
  | .suspension 1 =>
      match demo.awaitedRoot with
      | none => .unknownStep world stack (.suspension 1)
      | some deferred =>
          let resumed := { demo with awaitedRoot := none }
          let moved := world.modifyBody place fun _ => .cubeRoot resumed
          .takingAwaited moved stack deferred fun taken value =>
            let rooted := { resumed with rooted := CubeRoot.realOf value }
            let kept := taken.modifyBody place fun _ => .cubeRoot rooted
            .announcing kept stack place rooted (.root rooted.rooted)
  | position => .unknownStep world stack position

/-- The hook of the demonstration has heard: go on to the next work, the next
announcement, or the end. -/
def announcedProgress (world : World) (stack : Stack) (place : Place)
    (announcement : Announcement) : State :=
  match world.body? place with
  | some (.cubeRoot demo) =>
      match announcement with
      | .started => .launchingWork world stack place demo 0 (demo.cube demo.input)
      | .cube _ => .launchingWork world stack place demo 1 (demo.root demo.cubed)
      | .root _ => .announcing world stack place demo .finished
      | .finished => .replying world stack (.outcome (.ok demo.result))
  | _ => .replying world stack .done

/-- Run the step of a body at a position. -/
def runningStep (world : World) (stack : Stack) (place : Place) (position : Position) :
    State :=
  match world.body? place with
  | none => .unknownStep world stack position
  | some (.custom step) => ⟨world, stack, .program (step position)⟩
  | some (.pipeline pipeline) => .steppingPipeline world stack place pipeline position
  | some (.cubeRoot demo) => .steppingCubeRoot world stack place demo position

/-- A work has been dispatched: await it at a suspension. -/
def launchedWork (world : World) (stack : Stack) (place : Place) (number deferred : Nat) :
    State :=
  .replying (world.modifyBody place (·.await number deferred)) stack
    (.suspended number deferred)

end State

end Stepwise
