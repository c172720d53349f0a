import Stepwise.Proofs.Stains.Basic

/-!
# Small steps with a stain

What comes of a task, of a reply at a frame, or of a panic that passes one, is the same with a
stain as without it, unless a machine that is marked is about to be called, a name that is missing
is about to be given again, or a share that is missing would have kept an observer.
-/

namespace Stepwise

/-- The name of the receipt that a frame gives out. -/
def Frame.receipt? : Frame → Option Name
  | .placing receipt _ _ => some receipt
  | _ => none

/-- The name of the handle that a frame gives out. -/
def Frame.handle? : Frame → Option Name
  | .starting handle _ => some handle
  | _ => none

/-- The shares that are missing keep no observer: where they make the difference between the last
share in the machine and another one, it has no observer any more. -/
def Stain.Harmless (stain : Stain) (world : World) : Prop :=
  ∀ found, world.activations.get? stain.machine = some found → 1 < found.owners →
    found.owners - stain.shares ≤ 1 → found.observer = none

/-- The state with a stain. -/
def State.stained (state : State) (stain : Stain) : State :=
  { state with world := state.world.stained stain }

namespace State

variable (world : World) (stack : Stack) (stain : Stain)

@[simp] theorem control_stained (state : State) :
    (state.stained stain).control = state.control := rfl

@[simp] theorem world_stained (state : State) :
    (state.stained stain).world = state.world.stained stain := rfl

theorem ite_stained (condition : Prop) [Decidable condition] (left right : State) :
    (if condition then left else right).stained stain =
      if condition then left.stained stain else right.stained stain :=
  apply_ite (fun state : State => state.stained stain) ..

theorem disposing_stained (displaced : List Owned) (reply : Reply) :
    disposing (world.stained stain) stack displaced reply =
      (disposing world stack displaced reply).stained stain := by
  cases displaced <;> rfl

theorem dropping_stained (owned : List Owned) (payload : Payload) :
    dropping (world.stained stain) stack owned payload =
      (dropping world stack owned payload).stained stain := by
  cases owned <;> rfl

/-! ## Steps of machines -/

theorem dispatching_stained (target : Target) (infallible : Bool) (work : Program)
    (waiting : Nat → Stack) :
    dispatching (world.stained stain) stack target infallible work waiting =
      (dispatching world stack target infallible work waiting).stained stain := by
  cases target with
  | immediate => rfl
  | pool pool =>
      simp only [dispatching, ite_stained]
      rfl
  | context =>
      simp only [dispatching, World.thread_stained]
      cases world.thread.context with
      | none => rfl
      | some pool =>
          simp only [ite_stained]
          rfl

theorem takingAwaited_stained (deferred : Nat) {proceed : World → Value → State}
    (same : ∀ world value,
      proceed (world.stained stain) value = (proceed world value).stained stain) :
    takingAwaited (world.stained stain) stack deferred proceed =
      (takingAwaited world stack deferred proceed).stained stain := by
  simp only [takingAwaited, World.retrieve_stained]
  cases (world.retrieve deferred).2 with
  | ok value => exact same _ value
  | error error => rfl

theorem launchingStage_stained (place : Place) (pipeline : Pipeline) (number : Nat)
    (input : Value) :
    launchingStage (world.stained stain) stack place pipeline number input =
      (launchingStage world stack place pipeline number input).stained stain := by
  unfold launchingStage
  cases pipeline.stage? number with
  | none => rfl
  | some stage =>
      simp only [World.modifyBody_stained]
      exact dispatching_stained ..

theorem steppingPipeline_stained (place : Place) (pipeline : Pipeline) (position : Position) :
    steppingPipeline (world.stained stain) stack place pipeline position =
      (steppingPipeline world stack place pipeline position).stained stain := by
  cases position with
  | finished => rfl
  | notStarted =>
      simp only [steppingPipeline]
      cases pipeline.seed with
      | none => rfl
      | some seed =>
          simp only [World.modifyBody_stained]
          cases pipeline.stages.isEmpty with
          | true => rfl
          | false => exact launchingStage_stained ..
  | suspension number =>
      simp only [steppingPipeline]
      cases pipeline.awaited with
      | none => rfl
      | some deferred =>
          simp only [World.modifyBody_stained]
          exact takingAwaited_stained _ _ _ _ fun _ _ => rfl

theorem inspectedValue_stained (place : Place) (number : Nat) (value : Value) :
    inspectedValue (world.stained stain) stack place number value =
      (inspectedValue world stack place number value).stained stain := by
  simp only [inspectedValue, World.body?_stained]
  cases world.body? place with
  | none => rfl
  | some body =>
      cases body with
      | custom _ | cubeRoot _ => rfl
      | pipeline pipeline =>
          simp only
          cases pipeline.following? number with
          | none => rfl
          | some next => exact launchingStage_stained ..

theorem launchingWork_stained (place : Place) (demo : CubeRoot) (number : Nat) (work : Program) :
    launchingWork (world.stained stain) stack place demo number work =
      (launchingWork world stack place demo number work).stained stain := by
  simp only [launchingWork, World.modifyBody_stained]
  exact dispatching_stained ..

theorem announcedProgress_stained (place : Place) (announcement : Announcement) :
    announcedProgress (world.stained stain) stack place announcement =
      (announcedProgress world stack place announcement).stained stain := by
  simp only [announcedProgress, World.body?_stained]
  cases world.body? place with
  | none => rfl
  | some body =>
      cases body with
      | custom _ | pipeline _ => rfl
      | cubeRoot demo =>
          cases announcement with
          | started | cube _ => exact launchingWork_stained ..
          | root _ | finished => rfl

theorem steppingCubeRoot_stained (place : Place) (demo : CubeRoot) (position : Position) :
    steppingCubeRoot (world.stained stain) stack place demo position =
      (steppingCubeRoot world stack place demo position).stained stain := by
  unfold steppingCubeRoot
  split
  · rfl
  · cases demo.awaitedCube with
    | none => rfl
    | some deferred =>
        simp only [World.modifyBody_stained]
        refine takingAwaited_stained _ _ _ _ fun taken value => ?_
        simp only [World.modifyBody_stained]
        rfl
  · cases demo.awaitedRoot with
    | none => rfl
    | some deferred =>
        simp only [World.modifyBody_stained]
        refine takingAwaited_stained _ _ _ _ fun taken value => ?_
        simp only [World.modifyBody_stained]
        rfl
  · rfl

theorem runningStep_stained (place : Place) (position : Position) :
    runningStep (world.stained stain) stack place position =
      (runningStep world stack place position).stained stain := by
  simp only [runningStep, World.body?_stained]
  cases world.body? place with
  | none => rfl
  | some body =>
      cases body with
      | custom step => rfl
      | pipeline pipeline => exact steppingPipeline_stained ..
      | cubeRoot demo => exact steppingCubeRoot_stained ..

theorem launchedWork_stained (place : Place) (number deferred : Nat) :
    launchedWork (world.stained stain) stack place number deferred =
      (launchedWork world stack place number deferred).stained stain := by
  simp only [launchedWork, World.modifyBody_stained]
  rfl

/-! ## Tasks -/

theorem violating_stained (machine : Nat) (error : Error) :
    violating (world.stained stain) stack machine error =
      (violating world stack machine error).stained stain :=
  dropping_stained (world.record (.protocolViolated machine error)) ..

theorem registering_stained (deferred : Nat) (continuation : Continuation) :
    registering (world.stained stain) stack deferred continuation =
      (registering world stack deferred continuation).stained stain := by
  simp only [registering, ite_stained]
  rfl

theorem publishing_stained (deferred : Nat) (outcome : Outcome) :
    publishing (world.stained stain) stack deferred outcome =
      (publishing world stack deferred outcome).stained stain := by
  simp only [publishing, World.deferreds_stained]
  cases world.deferreds.get? deferred <;> rfl

theorem awakening_stained (deferred : Nat) :
    awakening (world.stained stain) stack deferred =
      (awakening world stack deferred).stained stain := by
  simp only [awakening, World.deferreds_stained]
  cases world.deferreds.get? deferred with
  | none => rfl
  | some found =>
      simp only
      cases found.lock with
      | held | poisoned => rfl
      | free => cases found.waker <;> rfl

/-- The machine that is called is not one that is marked. -/
theorem advancing_stained {machine : Nat}
    (unmarked : stain.cancelled = true → stain.machine ≠ machine) :
    advancing (world.stained stain) stack machine =
      (advancing world stack machine).stained stain := by
  simp only [advancing, World.get?_activations_stained]
  cases world.activations.get? machine with
  | none => rfl
  | some found =>
      simp only [Option.map_some, Stain.cancelled_touch stain machine found unmarked,
        Stain.position_touch]
      cases found.cancelled <;> rfl

theorem resuming_stained (machine : Nat) :
    resuming (world.stained stain) stack machine =
      (resuming world stack machine).stained stain := by
  have claims := @World.modifyActivation_stained world stain
    (fun activation => { activation with status := .running, pending := none }) machine
    fun activation => by unfold Stain.touch; split <;> rfl
  simp only [resuming, World.get?_activations_stained, claims]
  cases world.activations.get? machine with
  | none => rfl
  | some found =>
      simp only [Option.map_some, Stain.status_touch, Stain.pending_touch, Stain.position_touch]
      cases found.status with
      | finished => rfl
      | running => exact violating_stained ..
      | idle =>
          cases found.pending with
          | none => rfl
          | some deferred =>
              simp only [ite_stained, ← violating_stained]
              rfl

theorem finishing_stained (machine : Nat) (outcome : Outcome) :
    finishing (world.stained stain) stack machine outcome =
      (finishing world stack machine outcome).stained stain := by
  have finishes := @World.modifyActivation_stained world stain (·.finish) machine
    fun activation => by unfold Stain.touch; split <;> rfl
  simp only [finishing, World.get?_activations_stained, finishes]
  cases world.activations.get? machine with
  | none => rfl
  | some found =>
      simp only [Option.map_some, Stain.observer_touch]
      cases found.observer with
      | none => cases outcome <;> rfl
      | some observer => cases observer <;> cases outcome <;> rfl

theorem abandoning_stained (machine : Nat) :
    abandoning (world.stained stain) stack machine =
      (abandoning world stack machine).stained stain := by
  have claims := @World.modifyActivation_stained world stain
    (fun activation => { activation with status := .running }) machine
    fun activation => by unfold Stain.touch; split <;> rfl
  simp only [abandoning, World.get?_activations_stained, claims]
  cases world.activations.get? machine with
  | none => rfl
  | some found =>
      simp only [Option.map_some, Stain.status_touch]
      cases found.status <;> rfl

theorem scheduling_stained (scheduler : Scheduler) (continuation : Continuation) :
    scheduling (world.stained stain) stack scheduler continuation =
      (scheduling world stack scheduler continuation).stained stain := by
  cases scheduler with
  | inline | discard => rfl
  | pool pool =>
      simp only [scheduling, ite_stained]
      rfl
  | loop loop =>
      simp only [scheduling, ite_stained]
      rfl
  | queue queue =>
      simp only [scheduling, ite_stained]
      rfl

theorem runningContinuation_stained (continuation : Continuation) :
    runningContinuation (world.stained stain) stack continuation =
      (runningContinuation world stack continuation).stained stain := by
  cases continuation <;> rfl

/-- A share in the machine is given up: it is the last one with the stain only if the machine has
no observer. -/
theorem releasingShare_stained {machine : Nat}
    (harmless : stain.machine = machine → stain.Harmless world) :
    releasingShare (world.stained stain) stack machine =
      (releasingShare world stack machine).stained stain := by
  have releases := @World.modifyActivation_stained world stain
    (fun activation => { activation with owners := activation.owners - 1 }) machine
    fun activation => by unfold Stain.touch; split <;> simp [Nat.sub_right_comm]
  have empties (later : World) := @World.modifyActivation_stained later stain
    (fun activation => { activation with observer := none }) machine
    fun activation => by unfold Stain.touch; split <;> rfl
  simp only [releasingShare, World.get?_activations_stained, releases, empties]
  cases lookup : world.activations.get? machine with
  | none => rfl
  | some found =>
      simp only [Option.map_some, Stain.observer_touch]
      by_cases last : found.owners ≤ 1
      · have still : (stain.touch machine found).owners ≤ 1 :=
          Nat.le_trans (Stain.owners_touch_le ..) last
        simp only [last, still, if_true]
        cases found.observer with
        | none => rfl
        | some observer => cases observer <;> rfl
      · by_cases becomes : (stain.touch machine found).owners ≤ 1
        · have same : stain.machine = machine := Decidable.byContradiction fun other =>
            last (by rwa [Stain.touch_of_ne stain machine found other] at becomes)
          have unobserved : found.observer = none :=
            harmless same found (by rwa [same]) (Nat.lt_of_not_le last)
              (by simpa [Stain.touch, same] using becomes)
          simp only [last, becomes, if_true, if_false, unobserved,
            World.emptied_of_unobserved world lookup unobserved]
          rfl
        · simp only [last, becomes, if_false]
          rfl

theorem shuttingDown_stained (pool : Nat) :
    shuttingDown (world.stained stain) stack pool =
      (shuttingDown world stack pool).stained stain := by
  simp only [shuttingDown, World.pools_stained]
  cases world.pools.get? pool with
  | none => rfl
  | some found =>
      simp only
      cases found.isBusy with
      | true => rfl
      | false => cases found.jobs.isEmpty <;> rfl

theorem discarding_stained {owned : Owned}
    (harmless : owned = .activation stain.machine → stain.Harmless world) :
    discarding (world.stained stain) stack owned =
      (discarding world stack owned).stained stain := by
  cases owned with
  | continuation dropped =>
      cases dropped with
      | handOver _ machine | resumption machine => exact abandoning_stained ..
      | callback _ | job _ _ | signal _ => rfl
  | activation machine =>
      exact releasingShare_stained _ _ _ fun same => harmless (by rw [same])
  | runtime pool => exact shuttingDown_stained ..
  | writer _ | loop _ => rfl

theorem carryingOut_stained {task : Task}
    (idle : stain.cancelled = true → task ≠ .advance stain.machine)
    (harmless : task = .discard (.activation stain.machine) → stain.Harmless world) :
    carryingOut (world.stained stain) stack task =
      (carryingOut world stack task).stained stain := by
  cases task with
  | run continuation => exact runningContinuation_stained ..
  | discard owned => exact discarding_stained _ _ _ fun same => harmless (by rw [same])
  | publish deferred outcome => exact publishing_stained ..
  | schedule scheduler continuation => exact scheduling_stained ..
  | resume machine => exact resuming_stained ..
  | step place position => exact runningStep_stained ..
  | finish machine outcome => exact finishing_stained ..
  | advance machine =>
      exact advancing_stained _ _ _ fun marked same => idle marked (by rw [same])

/-! ## Replies and panics -/

theorem parking_stained (name : Name) (loop : Nat) (reply : Reply) :
    parking (world.stained stain) stack name loop reply =
      (parking world stack name loop reply).stained stain :=
  disposing_stained (world.restoreLoop name loop).1 ..

theorem parkingUnwound_stained (name : Name) (loop : Nat) (payload : Payload) :
    parkingUnwound (world.stained stain) stack name loop payload =
      (parkingUnwound world stack name loop payload).stained stain :=
  dropping_stained (world.restoreLoop name loop).1 ..

theorem pumping_stained (drive : Drive) :
    pumping (world.stained stain) stack drive = (pumping world stack drive).stained stain := by
  simp only [pumping, World.loopQueue_stained]
  cases world.loopQueue drive.loop <;> rfl

theorem decided_stained (drive : Drive) (last holds : Bool) :
    decided (world.stained stain) stack drive last holds =
      (decided world stack drive last holds).stained stain := by
  unfold decided
  split
  · exact parking_stained ..
  · split
    · rfl
    · exact pumping_stained ..

theorem stepped_stained (machine : Nat) (result : StepResult) :
    stepped (world.stained stain) stack machine result =
      (stepped world stack machine result).stained stain := by
  cases result with
  | complete value => rfl
  | fail error =>
      simp only [stepped]
      cases error.isFatal with
      | true => exact violating_stained ..
      | false => rfl
  | await resumeAt deferred =>
      have moves := @World.modifyActivation_stained world stain
        (fun activation => { activation with position := .suspension resumeAt }) machine
        fun activation => by unfold Stain.touch; split <;> rfl
      have suspends (later : World) := @World.modifyActivation_stained later stain
        (·.suspend deferred) machine fun activation => by unfold Stain.touch; split <;> rfl
      have scheduler : ((world.stained stain).activations.get? machine).map (·.scheduler) =
          (world.activations.get? machine).map (·.scheduler) := by
        rw [World.get?_activations_stained, Option.map_map]
        cases world.activations.get? machine <;> simp
      simp only [stepped, moves, scheduler, World.isComplete_stained, World.record_stained,
        suspends]
      split
      · rfl
      · exact registering_stained ..

theorem stepPanicked_stained (machine : Nat) (payload : Payload) :
    stepPanicked (world.stained stain) stack machine payload =
      (stepPanicked world stack machine payload).stained stain := by
  have position : ((world.stained stain).activations.get? machine).map (·.position) =
      (world.activations.get? machine).map (·.position) := by
    rw [World.get?_activations_stained, Option.map_map]
    cases world.activations.get? machine <;> simp
  simp only [stepPanicked, position]
  rfl

/-- A handle is given out under another name than the one that is missing. -/
theorem started_stained {handle : Name} (machine : Nat) (apart : stain.handle ≠ some handle) :
    started (world.stained stain) stack handle machine =
      (started world stack handle machine).stained stain := by
  simp only [started, World.isFinished_stained, World.handles_stained, Table.find?_without apart,
    World.handles_insert_stained world stain machine apart]
  exact disposing_stained { world with handles := world.handles.insert handle machine } ..

theorem waiting_stained (deferred : Nat) (run : Option (Nat × Nat)) :
    waiting (world.stained stain) stack deferred run =
      (waiting world stack deferred run).stained stain :=
  registering_stained { world with waiters := world.waiters.push ⟨deferred, .waiting, run⟩ } ..

theorem closingNext_stained (loop discarded : Nat) :
    closingNext (world.stained stain) stack loop discarded =
      (closingNext world stack loop discarded).stained stain := by
  simp only [closingNext, World.loopQueue_stained]
  cases world.loopQueue loop with
  | cons _ _ => rfl
  | nil =>
      simp only
      split <;> rfl

theorem runningNext_stained (name : Name) (loop ran : Nat) :
    runningNext (world.stained stain) stack name loop ran =
      (runningNext world stack name loop ran).stained stain := by
  simp only [runningNext, World.loopQueue_stained]
  cases world.loopQueue loop with
  | nil => exact parking_stained ..
  | cons _ _ => rfl

theorem returning_stained (reply : Reply) {frame : Frame}
    (receipt : Apart stain.receipt frame.receipt?) (handle : Apart stain.handle frame.handle?) :
    returning (world.stained stain) stack reply frame =
      (returning world stack reply frame).stained stain := by
  cases frame with
  | placing name raw deferred =>
      simp only [returning, World.putReceipt_stained world stain deferred raw (receipt name rfl)]
      rfl
  | firing deferred rest =>
      cases rest with
      | nil => exact awakening_stained ..
      | cons _ _ => rfl
  | stepping machine =>
      simp only [returning, World.judge_stained]
      exact stepped_stained ..
  | inspected place number value => exact inspectedValue_stained ..
  | announced place announcement => exact announcedProgress_stained ..
  | launched place number deferred => exact launchedWork_stained ..
  | starting name machine => exact started_stained _ _ _ _ (handle name rfl)
  | blocking machine pool deferred => exact waiting_stained (world.leave pool none) ..
  | disposing rest => cases rest <;> rfl
  | unwinding rest payload => cases rest <;> rfl
  | turning name loop => exact parking_stained ..
  | looping name loop ran => exact runningNext_stained ..
  | deciding drive last => exact decided_stained ..
  | closing loop discarded => exact closingNext_stained ..
  | _ => rfl

theorem unwindingThrough_stained (payload : Payload) (frame : Frame) :
    unwindingThrough (world.stained stain) stack payload frame =
      (unwindingThrough world stack payload frame).stained stain := by
  cases frame with
  | firing deferred rest => exact dropping_stained world ..
  | stepping machine => exact stepPanicked_stained ..
  | disposing rest => exact dropping_stained world ..
  | turning name loop => exact parkingUnwound_stained ..
  | looping name loop ran => exact parkingUnwound_stained ..
  | deciding drive last => exact parkingUnwound_stained ..
  | pumping drive => exact parkingUnwound_stained ..
  | closing loop discarded =>
      exact dropping_stained (world.modifyLoop loop fun loop =>
        { loop with queue := [], alive := false }) ..
  | _ => rfl

end State

end Stepwise
