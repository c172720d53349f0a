import Stepwise.Proofs.Stains.Steps

/-!
# Requests with a stain

What a request does is the same with a stain as without it, unless it uses a name that is missing.
So is what happens by a request, by a task, or by a reply at a frame.
-/

namespace Stepwise

/-- The name of the receipt that a request uses. -/
def Request.receipt? : Request → Option Name
  | .pending name _ _ | .toAwaiter name | .readiness name | .onComplete name _ | .retrieve name
  | .dropReceipt name | .suspend name _ | .poll name _ | .wait name => some name
  | .startAwaitable _ _ _ name early => if early then some name else none
  | _ => none

/-- The name of the handle that a request uses. -/
def Request.handle? : Request → Option Name
  | .cancel name | .handle name | .dropHandle name => some name
  | _ => none

namespace State

variable (world : World) (stack : Stack) (stain : Stain)

theorem withNamed_stained {α : Type} (table : Table α) (name : Name) {use changed : α → State}
    (same : ∀ value, changed value = (use value).stained stain) :
    withNamed (world.stained stain) stack table name changed =
      (withNamed world stack table name use).stained stain := by
  unfold withNamed
  cases table.find? name with
  | none => rfl
  | some value => exact same value

theorem withHandle_stained {name : Name} {use changed : Nat → State}
    (apart : stain.handle ≠ some name)
    (same : ∀ machine, changed machine = (use machine).stained stain) :
    withNamed (world.stained stain) stack (world.handles.without stain.handle) name changed =
      (withNamed world stack world.handles name use).stained stain := by
  unfold withNamed
  rw [Table.find?_without apart]
  cases world.handles.find? name with
  | none => rfl
  | some machine => exact same machine

theorem withReceipt_stained {name : Name} {use changed : Receipt → State}
    (apart : stain.receipt ≠ some name)
    (same : ∀ receipt, changed receipt = (use receipt).stained stain) :
    withReceipt (world.stained stain) stack name changed =
      (withReceipt world stack name use).stained stain := by
  simp only [withReceipt, World.receipts_stained, Table.find?_without apart]
  cases world.receipts.find? name with
  | none => rfl
  | some receipt => exact same receipt

theorem withAwaiter_stained {name : Name} {use changed : Nat → State}
    (apart : stain.receipt ≠ some name)
    (same : ∀ deferred, changed deferred = (use deferred).stained stain) :
    withAwaiter (world.stained stain) stack name changed =
      (withAwaiter world stack name use).stained stain := by
  refine withReceipt_stained _ _ _ apart fun receipt => ?_
  rw [ite_stained, same]
  rfl

theorem makingPending_stained {receipt : Name} (raw : Bool) (writer : Name)
    (apart : stain.receipt ≠ some receipt) :
    makingPending (world.stained stain) stack receipt raw writer =
      (makingPending world stack receipt raw writer).stained stain := by
  simp only [makingPending, World.writers_stained, World.newDeferred_stained,
    World.putReceipt_stained _ stain _ _ apart]
  cases world.writers.find? writer <;> rfl

theorem polling_stained (deferred : Nat) (waker : Waker) :
    polling (world.stained stain) stack deferred waker =
      (polling world stack deferred waker).stained stain := by
  simp only [polling, World.deferreds_stained, World.retrieve_stained]
  cases world.deferreds.get? deferred with
  | none => rfl
  | some found =>
      simp only
      cases found.lock with
      | held | poisoned => rfl
      | free => cases found.isComplete <;> rfl

theorem collecting_stained (waiter : Nat) :
    collecting (world.stained stain) stack waiter =
      (collecting world stack waiter).stained stain := by
  simp only [collecting, World.waiters_stained, World.modifyWaiter_stained, World.retrieve_stained]
  cases world.waiters.get? waiter with
  | none => rfl
  | some found =>
      simp only
      cases found.signal with
      | waiting => rfl
      | lost | woken => exact disposing_stained ..

theorem starting_stained (machine : Machine) (scheduler : Scheduler) (observer : Observer)
    (waiting : Nat → Frame) (present : stain.Shows → stain.machine < world.activations.size) :
    starting (world.stained stain) stack machine scheduler observer waiting =
      (starting world stack machine scheduler observer waiting).stained stain := by
  simp only [starting, World.newActivation_stained world stain present]
  rfl

theorem startingAwaitable_stained (handle : Name) (machine : Machine) (scheduler : Scheduler)
    (receipt : Name) (early : Bool) (apart : early = true → stain.receipt ≠ some receipt)
    (present : stain.Shows → stain.machine < world.activations.size) :
    startingAwaitable (world.stained stain) stack handle machine scheduler receipt early =
      (startingAwaitable world stack handle machine scheduler receipt early).stained stain := by
  simp only [startingAwaitable, World.newDeferred_stained]
  cases early with
  | true =>
      simp only [World.putReceipt_stained _ stain _ _ (apart rfl)]
      exact starting_stained _ _ _ _ _ _ _ present
  | false => exact starting_stained _ _ _ _ _ _ _ present

theorem runningMachine_stained (threadName : String) (pool : Nat) (machine : Machine)
    (present : stain.Shows → stain.machine < world.activations.size) :
    runningMachine (world.stained stain) stack threadName pool machine =
      (runningMachine world stack threadName pool machine).stained stain := by
  unfold runningMachine
  exact starting_stained
    (entered { world.newDeferred.1 with thread := ⟨threadName, none⟩ } pool) _ _ _ _ _ _ present

theorem takingQueued_stained (name : Name) (index : Nat) (use : Continuation → Task) :
    takingQueued (world.stained stain) stack name index use =
      (takingQueued world stack name index use).stained stain := by
  refine withNamed_stained _ _ _ _ _ fun queue => ?_
  simp only [World.queues_stained]
  split <;> rfl

theorem driving_stained (name : Name) {drive : World → Nat → State}
    (same : ∀ world loop, drive (world.stained stain) loop = (drive world loop).stained stain) :
    driving (world.stained stain) stack name drive =
      (driving world stack name drive).stained stain :=
  withNamed_stained _ _ _ _ _ fun loop =>
    same { world with ownedLoops := world.ownedLoops.erase name } loop

theorem turning_stained (name : Name) (loop : Nat) :
    turning (world.stained stain) stack name loop =
      (turning world stack name loop).stained stain := by
  simp only [turning, World.loopQueue_stained]
  cases world.loopQueue loop with
  | nil => exact parking_stained ..
  | cons _ _ => rfl

theorem makingLoop_stained (name : Name) :
    makingLoop (world.stained stain) stack name = (makingLoop world stack name).stained stain := by
  unfold makingLoop
  exact disposing_stained (World.restoreLoop { world with
      loops := world.loops.push .fresh
      loopSchedulers := world.loopSchedulers.insert name world.loops.size }
    name world.loops.size).1 ..

theorem makingRuntime_stained (name : Name) (workers : Nat) (threadName : String) :
    makingRuntime (world.stained stain) stack name workers threadName =
      (makingRuntime world stack name workers threadName).stained stain := by
  simp only [makingRuntime, World.runtimes_stained]
  split
  · rfl
  · cases world.runtimes.find? name <;> rfl

theorem droppingRuntime_stained (name : Name) :
    droppingRuntime (world.stained stain) stack name =
      (droppingRuntime world stack name).stained stain := by
  refine withNamed_stained _ _ _ _ _ fun pool => ?_
  rw [ite_stained]
  rfl

theorem working_stained (pool : Nat) :
    working (world.stained stain) stack pool = (working world stack pool).stained stain := by
  simp only [working, World.pools_stained]
  cases world.pools.get? pool with
  | none => rfl
  | some found =>
      simp only
      cases found.jobs with
      | nil => rfl
      | cons job rest => cases found.idleWorker? <;> rfl

theorem requesting_stained {request : Request}
    (present : stain.Shows → stain.machine < world.activations.size)
    (receipt : Apart stain.receipt request.receipt?)
    (handle : Apart stain.handle request.handle?) :
    requesting (world.stained stain) stack request =
      (requesting world stack request).stained stain := by
  cases request with
  | pending name raw writer => exact makingPending_stained _ _ _ _ _ (receipt name rfl)
  | toAwaiter name =>
      have apart := receipt name rfl
      refine withReceipt_stained _ _ _ apart fun found => ?_
      rw [ite_stained, World.putReceipt_stained _ stain _ _ apart]
      rfl
  | onComplete name body =>
      exact withReceipt_stained _ _ _ (receipt name rfl) fun found => registering_stained ..
  | retrieve name =>
      simp only [requesting, World.retrieve_stained]
      exact withAwaiter_stained _ _ _ (receipt name rfl) fun _ => rfl
  | dispatch name raw infallible target work =>
      exact dispatching_stained world stack stain target infallible work fun deferred =>
        .placing name raw deferred :: .answering .done :: stack
  | poll name waker =>
      exact withNamed_stained _ _ _ _ _ fun found =>
        withAwaiter_stained _ _ _ (receipt name rfl) fun deferred => polling_stained ..
  | wait name =>
      simp only [requesting, World.receipts_erase_stained]
      exact withAwaiter_stained _ _ _ (receipt name rfl) fun deferred => waiting_stained ..
  | collect waiter => exact collecting_stained ..
  | newLoop loop => exact makingLoop_stained ..
  | turnLoop loop =>
      simp only [requesting]
      exact driving_stained _ _ _ _ fun _ _ => turning_stained ..
  | runLoop loop =>
      simp only [requesting]
      exact driving_stained _ _ _ _ fun _ _ => runningNext_stained ..
  | runLoopUntil loop deadline clock condition =>
      simp only [requesting]
      exact driving_stained _ _ _ _ fun _ _ => rfl
  | dropLoop loop =>
      simp only [requesting]
      exact driving_stained _ _ _ _ fun _ _ => rfl
  | runQueued queue index => exact takingQueued_stained ..
  | dropQueued queue index => exact takingQueued_stained ..
  | newRuntime runtime workers threadName => exact makingRuntime_stained ..
  | dropRuntime runtime => exact droppingRuntime_stained ..
  | run threadName runtime machine =>
      exact withNamed_stained _ _ _ _ _ fun pool => runningMachine_stained _ _ _ _ _ _ present
  | work runtime => exact withNamed_stained _ _ _ _ _ fun pool => working_stained ..
  | start handle machine scheduler observer => exact starting_stained _ _ _ _ _ _ _ present
  | startAwaitable handle machine scheduler name early =>
      exact startingAwaitable_stained _ _ _ _ _ _ _ _
        (fun early => receipt name (if_pos early)) present
  | cancel name =>
      refine withHandle_stained _ _ _ (handle name rfl) fun machine => ?_
      simp only [World.record_stained]
      rw [World.modifyActivation_stained]
      · rfl
      · intro activation
        unfold Stain.touch
        split
        · simp
        · rfl
  | handle name =>
      refine withHandle_stained _ _ _ (handle name rfl) fun machine => ?_
      rw [World.isFinished_stained]
      rfl
  | dropHandle name =>
      simp only [requesting, World.handles_erase_stained]
      exact withHandle_stained _ _ _ (handle name rfl) fun machine => rfl
  | isFinished machine =>
      simp only [requesting, World.isFinished_stained]
      rfl
  | readiness name => exact withReceipt_stained _ _ _ (receipt name rfl) fun _ => rfl
  | dropReceipt name =>
      simp only [requesting, World.receipts_erase_stained]
      exact withReceipt_stained _ _ _ (receipt name rfl) fun _ => rfl
  | suspend name resumeAt =>
      simp only [requesting]
      exact withAwaiter_stained _ _ _ (receipt name rfl) fun _ => rfl
  | complete _ _ | dropWriter _ | findLoop _ | findQueue _ | queueLength _ | findPool _
  | isShutdown _ | enter _ _ | queuedJobs _ | stepMachine _ _ | dropMachine _ | load _ =>
      exact withNamed_stained _ _ _ _ _ fun _ => rfl
  | _ => rfl

end State

/-! ## What happens -/

namespace World

variable (world : World) (stain : Stain)

theorem dispatch_stained (target : Target) (work : Program) (launcher : Option (Place × Nat)) :
    (world.stained stain).dispatch target work launcher = world.dispatch target work launcher := by
  simp only [dispatch, reaches_stained, deferreds_stained]

theorem launch_stained (place : Place) (pipeline : Pipeline) (number : Nat) (input : Value) :
    (world.stained stain).launch place pipeline number input =
      world.launch place pipeline number input := by
  simp only [launch, dispatch_stained]

theorem launchWork_stained (place : Place) (demo : CubeRoot) (number : Nat) (work : Program) :
    (world.stained stain).launchWork place demo number work =
      world.launchWork place demo number work := by
  simp only [launchWork, dispatch_stained]

theorem takes_stained (deferred : Nat) (occurrence : Value → Occurrence) :
    (world.stained stain).takes deferred occurrence = world.takes deferred occurrence := by
  simp only [takes, retrieve_stained]

theorem stepped_stained (place : Place) (position : Position) :
    (world.stained stain).stepped place position = world.stepped place position := by
  simp only [stepped, body?_stained, launch_stained, takes_stained]

theorem requested_stained {request : Request} (handle : Apart stain.handle request.handle?) :
    (world.stained stain).requested request = world.requested request := by
  cases request with
  | start _ _ _ _ | startAwaitable _ _ _ _ _ | run _ _ _ =>
      simp only [requested, size_activations_stained, deferreds_stained, runtimes_stained]
  | dispatch _ _ _ _ _ => exact dispatch_stained ..
  | cancel name =>
      simp only [requested, handles_stained, Table.find?_without (handle name rfl)]
  | _ => rfl

theorem performed_stained {task : Task}
    (idle : stain.cancelled = true → task ≠ .advance stain.machine) :
    (world.stained stain).performed task = world.performed task := by
  cases task with
  | run continuation => cases continuation <;> rfl
  | step place position => exact stepped_stained ..
  | advance machine =>
      have unmarked (marked : stain.cancelled = true) (same : stain.machine = machine) : False :=
        idle marked (by rw [same])
      simp only [performed, get?_activations_stained]
      cases world.activations.get? machine with
      | none => rfl
      | some found =>
          simp only [Option.map_some, Stain.cancelled_touch stain machine found unmarked,
            Stain.position_touch]
  | finish machine outcome =>
      simp only [performed, get?_activations_stained]
      cases world.activations.get? machine with
      | none => rfl
      | some found => simp only [Option.map_some, Stain.observer_touch]
  | _ => rfl

theorem returned_stained (reply : Reply) (frame : Frame) :
    (world.stained stain).returned reply frame = world.returned reply frame := by
  cases frame with
  | stepping machine => simp only [returned, judge_stained]
  | inspected place number value => simp only [returned, body?_stained, launch_stained]
  | announced place announcement => simp only [returned, body?_stained, launchWork_stained]
  | _ => rfl

end World

end Stepwise
