import Stepwise.Execution.Return

/-!
# What requests do

One function per kind of request.  A request either replies at once, is refused
with the reason, panics, or comes down to a task whose reply it waits for.
-/

namespace Stepwise

namespace World

/-- Set a region of memory aside. -/
def newRegion (world : World) : World × Nat :=
  ({ world with fresh := world.fresh + 1 }, world.fresh)

/-- Add a started machine. -/
def newActivation (world : World) (body : Body) (scheduler : Scheduler)
    (observer : Observer) : World × Nat :=
  let machine := world.activations.size
  let added := { world with
    activations := world.activations.push (.fresh body scheduler observer) }
  (added.record (.machineStarted machine), machine)

end World

namespace State

/-- Use a receipt, or refuse for want of one. -/
def withReceipt (world : World) (stack : Stack) (name : Name) (use : Receipt → State) :
    State :=
  match world.receipts.find? name with
  | none => .refusing world stack (.noSuch name.text)
  | some receipt => use receipt

/-- Use a receipt that can be awaited, or refuse. -/
def withAwaiter (world : World) (stack : Stack) (name : Name) (use : Nat → State) : State :=
  .withReceipt world stack name fun receipt =>
    if receipt.raw then .refusing world stack (.notAwaiter name.text)
    else use receipt.deferred

/-- Use a value under a name, or refuse for want of one. -/
def withNamed {α : Type} (world : World) (stack : Stack) (table : Table α) (name : Name)
    (use : α → State) : State :=
  match table.find? name with
  | none => .refusing world stack (.noSuch name.text)
  | some value => use value

/-- Make a pending deferred; a writer already under the name is dropped. -/
def makingPending (world : World) (stack : Stack) (receipt : Name) (raw : Bool)
    (writer : Name) : State :=
  let (added, deferred) := world.newDeferred
  let displaced := match world.writers.find? writer with
    | some other => [Owned.writer other]
    | none => []
  let named := (added.putReceipt receipt deferred raw)
  .disposing { named with writers := named.writers.insert writer deferred } stack displaced
    .done

/-- Make a deferred that is complete from the start. -/
def makingReady (world : World) (stack : Stack) (receipt : Name) (raw : Bool)
    (outcome : Outcome) : State :=
  let (added, deferred) := world.newDeferred
  ⟨added, .placing receipt raw deferred :: .answering .done :: stack,
    .task (.publish deferred outcome)⟩

/-- Poll a deferred: its outcome, or a promise to wake the waker. -/
def polling (world : World) (stack : Stack) (deferred : Nat) (waker : Waker) : State :=
  match world.deferreds.get? deferred with
  | none => .replying world stack .notYet
  | some found =>
      match found.lock with
      | .held => ⟨world, stack, .halted .deadlock⟩
      | .poisoned => .panicking world stack awakening.poisonedMessage
      | .free =>
          if found.isComplete then
            let (taken, outcome) := world.retrieve deferred
            .replying taken stack (.outcome outcome)
          else
            .replying (world.modifyDeferred deferred (·.keepWaker waker)) stack .notYet

/-- What a blocked thread finds when it wakes.  A thread that ran a machine then
drops the handle. -/
def collecting (world : World) (stack : Stack) (waiter : Nat) : State :=
  match world.waiters.get? waiter with
  | none => .replying world stack .notYet
  | some found =>
      let share := match found.run with
        | some (_, machine) => [Owned.activation machine]
        | none => []
      let released := world.modifyWaiter waiter fun waiter => { waiter with run := none }
      match found.signal with
      | .waiting => .replying world stack .notYet
      | .lost => .disposing released stack share (.outcome (.error .shutdown))
      | .woken =>
          let (taken, outcome) := released.retrieve found.deferred
          .disposing taken stack share (.outcome outcome)

/-- Start a machine: its first resumption runs before the start returns. -/
def starting (world : World) (stack : Stack) (machine : Machine) (scheduler : Scheduler)
    (observer : Observer) (waiting : Nat → Frame) : State :=
  let (added, number) := world.newActivation machine.body scheduler observer
  ⟨added, waiting number :: stack, .task (.resume number)⟩

/-- Start a machine whose outcome completes a fresh deferred. -/
def startingAwaitable (world : World) (stack : Stack) (handle : Name) (machine : Machine)
    (scheduler : Scheduler) (receipt : Name) (early : Bool) : State :=
  let (added, deferred) := world.newDeferred
  if early then
    .starting (added.putReceipt receipt deferred false) stack machine scheduler
      (.writer deferred) (.starting handle)
  else
    .starting added (.placing receipt false deferred :: stack) machine scheduler
      (.writer deferred) (.starting handle)

/-- Take an entry out of a custom scheduler's list and use it. -/
def takingQueued (world : World) (stack : Stack) (name : Name) (index : Nat)
    (use : Continuation → Task) : State :=
  .withNamed world stack world.queueNames name fun queue =>
    match ((world.queues.get? queue).getD [])[index]? with
    | some (some continuation) =>
        .performing (world.modifyQueue queue (·.set index none)) stack (use continuation) .done
    | _ => .refusing world stack (.noSuch s!"{name.text}[{index}]")

/-- Drive a loop, which is out of its owner's hands meanwhile. -/
def driving (world : World) (stack : Stack) (name : Name)
    (drive : World → Nat → State) : State :=
  .withNamed world stack world.ownedLoops name fun loop =>
    drive { world with ownedLoops := world.ownedLoops.erase name } loop

/-- Run one queued continuation of a loop, if there is one. -/
def turning (world : World) (stack : Stack) (name : Name) (loop : Nat) : State :=
  match world.loopQueue loop with
  | [] => .parking world stack name loop (.flag false)
  | continuation :: rest =>
      let popped := world.modifyLoop loop fun loop => { loop with queue := rest }
      ⟨popped, .turning name loop :: stack, .task (.run continuation)⟩

/-- Make an event loop; one already under the name is dropped. -/
def makingLoop (world : World) (stack : Stack) (name : Name) : State :=
  let loop := world.loops.size
  let (owned, displaced) :=
    { world with
      loops := world.loops.push .fresh
      loopSchedulers := world.loopSchedulers.insert name loop }.restoreLoop name loop
  .disposing owned stack displaced .done

/-- Make a runtime; one already under the name is dropped. -/
def makingRuntime (world : World) (stack : Stack) (name : Name) (workers : Nat)
    (threadName : String) : State :=
  if workers = 0 then .panicking world stack "worker_threads must be > 0"
  else
    let pool := world.pools.size
    let added := { world with pools := world.pools.push (.fresh pool workers threadName) }
    let displaced := match world.runtimes.find? name with
      | some other => [Owned.runtime other]
      | none => []
    let reported := added.record (.runtimeStarted workers)
    .disposing { reported with
        runtimes := reported.runtimes.insert name pool
        spawners := reported.spawners.insert name pool }
      stack displaced .done

/-- Drop a runtime that is not in use. -/
def droppingRuntime (world : World) (stack : Stack) (name : Name) : State :=
  .withNamed world stack world.runtimes name fun pool =>
    if world.isInUse pool then .refusing world stack (.busy name.text)
    else
      let living := ((world.pools.get? pool).map (·.living)).getD []
      .performing { world with runtimes := world.runtimes.erase name } stack
        (.discard (.runtime pool)) (.stopped living)

/-- The current thread's call inside a runtime begins. -/
def entered (world : World) (pool : Nat) : World :=
  let counted := world.modifyPool pool fun pool => { pool with entered := pool.entered + 1 }
  { counted with thread := { counted.thread with context := some pool } }

/-- Call a program inside a runtime: work it dispatches goes there by default. -/
def entering (world : World) (stack : Stack) (pool : Nat) (body : Program) : State :=
  ⟨entered world pool, .context world.thread.context pool :: stack, .program body⟩

/-- Run a machine on a thread of its own: start it inside a runtime, and block
until it has finished. -/
def runningMachine (world : World) (stack : Stack) (threadName : String) (pool : Nat)
    (machine : Machine) : State :=
  let (added, deferred) := world.newDeferred
  let switched := { added with thread := ⟨threadName, none⟩ }
  .starting (entered switched pool) (.thread world.thread :: stack) machine .inline
    (.writer deferred) fun number => .blocking number pool deferred

/-- Let the lowest-numbered idle worker run the oldest job. -/
def working (world : World) (stack : Stack) (pool : Nat) : State :=
  match world.pools.get? pool with
  | none => .replying world stack (.flag false)
  | some found =>
      match found.jobs, found.idleWorker? with
      | job :: rest, some number =>
          let context := (found.workers[number]?.bind (·.context))
          let taken := world.modifyPool pool fun pool =>
            { pool with jobs := rest }.modifyWorker number fun worker =>
              { worker with busy := true }
          ⟨{ taken with thread := ⟨found.workerName number, context⟩ },
            .worker pool number world.thread :: stack, .task (.run job)⟩
      | _, _ => .replying world stack (.flag false)

/-- Carry out a request. -/
def requesting (world : World) (stack : Stack) : Request → State
  | .pending receipt raw writer => .makingPending world stack receipt raw writer
  | .ready receipt raw outcome => .makingReady world stack receipt raw outcome
  | .complete writer outcome =>
      .withNamed world stack world.writers writer fun deferred =>
        .performing { world with writers := world.writers.erase writer } stack
          (.publish deferred outcome) .done
  | .dropWriter writer =>
      .withNamed world stack world.writers writer fun deferred =>
        .performing { world with writers := world.writers.erase writer } stack
          (.discard (.writer deferred)) .done
  | .toAwaiter receipt =>
      .withReceipt world stack receipt fun found =>
        if found.raw then
          .replying (world.putReceipt receipt found.deferred false) stack .done
        else .refusing world stack (.alreadyAwaiter receipt.text)
  | .readiness receipt =>
      .withReceipt world stack receipt fun found =>
        .replying world stack (.readiness found.raw (world.isComplete found.deferred))
  | .isComplete deferred => .replying world stack (.flag (world.isComplete deferred))
  | .onComplete receipt body =>
      .withReceipt world stack receipt fun found =>
        .registering world (.answering .done :: stack) found.deferred (.callback body)
  | .retrieve receipt =>
      .withAwaiter world stack receipt fun deferred =>
        let (taken, outcome) := world.retrieve deferred
        .replying taken stack (.outcome outcome)
  | .dropReceipt receipt =>
      .withReceipt world stack receipt fun _ =>
        .replying { world with receipts := world.receipts.erase receipt } stack .done
  | .suspend receipt resumeAt =>
      .withAwaiter world stack receipt fun deferred =>
        .replying world stack (.suspended resumeAt deferred)
  | .dispatch receipt raw infallible target work =>
      .dispatching world stack target infallible work fun deferred =>
        .placing receipt raw deferred :: .answering .done :: stack
  | .newWaker waker body =>
      let (reserved, identity) := world.newRegion
      .replying { reserved with wakers := reserved.wakers.insert waker ⟨identity, body⟩ }
        stack .done
  | .poll receipt waker =>
      .withNamed world stack world.wakers waker fun found =>
        .withAwaiter world stack receipt fun deferred => .polling world stack deferred found
  | .wait receipt =>
      .withAwaiter world stack receipt fun deferred =>
        .waiting { world with receipts := world.receipts.erase receipt } stack deferred none
  | .collect waiter => .collecting world stack waiter
  | .schedule scheduler body =>
      .performing world stack (.schedule scheduler (.callback body)) .done
  | .newLoop loop => .makingLoop world stack loop
  | .findLoop loop =>
      .withNamed world stack world.loopSchedulers loop fun found =>
        .replying world stack (.reference found)
  | .turnLoop loop =>
      .driving world stack loop fun world found => .turning world stack loop found
  | .runLoop loop =>
      .driving world stack loop fun world found => .runningNext world stack loop found 0
  | .runLoopUntil loop deadline clock condition =>
      .driving world stack loop fun world found =>
        .deciding world stack ⟨loop, found, deadline, clock, condition, 0, 0, 0⟩ false
  | .dropLoop loop =>
      .driving world stack loop fun world found =>
        .performing world stack (.discard (.loop found)) .done
  | .newQueue queue =>
      let number := world.queues.size
      .replying { world with
          queues := world.queues.push []
          queueNames := world.queueNames.insert queue number }
        stack .done
  | .findQueue queue =>
      .withNamed world stack world.queueNames queue fun found =>
        .replying world stack (.reference found)
  | .queueLength queue =>
      .withNamed world stack world.queueNames queue fun found =>
        .replying world stack (.count ((world.queues.get? found).getD []).length)
  | .runQueued queue index => .takingQueued world stack queue index .run
  | .dropQueued queue index =>
      .takingQueued world stack queue index fun continuation =>
        .discard (.continuation continuation)
  | .newRuntime runtime workers threadName =>
      .makingRuntime world stack runtime workers threadName
  | .dropRuntime runtime => .droppingRuntime world stack runtime
  | .findPool runtime =>
      .withNamed world stack world.spawners runtime fun pool =>
        .replying world stack (.reference pool)
  | .isShutdown runtime =>
      .withNamed world stack world.spawners runtime fun pool =>
        .replying world stack (.flag (!world.acceptsJobs pool))
  | .enter runtime body =>
      .withNamed world stack world.runtimes runtime fun pool =>
        .entering world stack pool body
  | .run threadName runtime machine =>
      .withNamed world stack world.runtimes runtime fun pool =>
        .runningMachine world stack threadName pool machine
  | .runtimes =>
      .replying world stack (.names (world.runtimes.names.map (·.text)))
  | .queuedJobs runtime =>
      .withNamed world stack world.runtimes runtime fun pool =>
        .replying world stack (.count (((world.pools.get? pool).map (·.jobs.length)).getD 0))
  | .work runtime =>
      .withNamed world stack world.runtimes runtime fun pool => .working world stack pool
  | .start handle machine scheduler observer =>
      .starting world stack machine scheduler (.callback observer) (.starting handle)
  | .startAwaitable handle machine scheduler receipt early =>
      .startingAwaitable world stack handle machine scheduler receipt early
  | .cancel handle =>
      .withNamed world stack world.handles handle fun machine =>
        let reported := world.record (.cancellationRequested machine)
        .replying (reported.modifyActivation machine fun activation =>
          { activation with cancelled := true }) stack .done
  | .handle handle =>
      .withNamed world stack world.handles handle fun machine =>
        .replying world stack (.handle machine (world.isFinished machine))
  | .isFinished machine => .replying world stack (.flag (world.isFinished machine))
  | .dropHandle handle =>
      .withNamed world stack world.handles handle fun machine =>
        .performing { world with handles := world.handles.erase handle } stack
          (.discard (.activation machine)) .done
  | .newMachine name machine =>
      let number := world.kept.size
      .replying { world with
          kept := world.kept.push machine.body
          machines := world.machines.insert name number }
        stack .done
  | .stepMachine machine position =>
      .withNamed world stack world.machines machine fun number =>
        ⟨world, stack, .task (.step (.kept number) position)⟩
  | .dropMachine machine =>
      .withNamed world stack world.machines machine fun _ =>
        .replying { world with machines := world.machines.erase machine } stack .done
  | .newRegion =>
      let (reserved, region) := world.newRegion
      .replying reserved stack (.reference region)
  | .load cell =>
      .withNamed world stack world.memory cell fun content =>
        .replying world stack (.outcome content)
  | .store cell content =>
      .replying { world with memory := world.memory.insert cell content } stack .done
  | .note entry => .replying (world.note entry) stack .done
  | .record record => .replying (world.record record) stack .done
  | .threadName => .replying world stack (.text world.thread.name)
  | .thread name body =>
      ⟨{ world with thread := ⟨name, none⟩ }, .thread world.thread :: stack, .program body⟩
  | .attempt body => ⟨world, .attempting :: stack, .program body⟩

end State

end Stepwise
