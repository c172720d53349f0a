import Stepwise.Proofs.Course.Calm

/-!
# Calm requests

Every request is calm.  What it takes, user code has a receipt for, or a blocked thread
has waited for.
-/

namespace Stepwise.State

variable {may shared : Nat → Prop} {world later : World} {stack : Stack}

/-- Work that reaches its target is dispatched calmly, beneath what waits for it; free
dispatch outside every runtime panics. -/
theorem dispatching_calm {target : Target} {infallible : Bool} {work : Program}
    {waiting : Nat → Stack} :
    (world.reaches target = true ∧
      State.Calm may shared world (waiting world.deferreds.size)
        (dispatching world stack target infallible work waiting)) ∨
    (world.reaches target = false ∧ target = .context ∧
      dispatching world stack target infallible work waiting =
        .panicking world stack (outsideRuntime infallible)) := by
  have added : world.Calm may shared world.newDeferred.1 := .newDeferred world
  have queueing (pool : Nat) :
      State.Calm may shared world (waiting world.deferreds.size)
        (if world.acceptsJobs pool then
          .replying (world.newDeferred.1.modifyPool pool
            (·.push (.job world.deferreds.size work))) (waiting world.deferreds.size) .done
        else
          ⟨world.newDeferred.1, .recording .dispatchedAfterShutdown ::
              waiting world.deferreds.size,
            .task (.discard (.continuation (.job world.deferreds.size work)))⟩) := by
    split
    · exact replying_calm (added.trans (.same rfl rfl rfl rfl))
    · exact ⟨added, ⟨[.recording .dispatchedAfterShutdown], rfl, rfl⟩, rfl⟩
  cases target with
  | immediate => exact .inl ⟨rfl, added, ⟨[.working world.deferreds.size], rfl, rfl⟩, rfl⟩
  | pool pool => exact .inl ⟨rfl, queueing pool⟩
  | context =>
      cases context : world.thread.context with
      | none => exact .inr ⟨by simp [World.reaches, context], rfl, by
          simp [dispatching, context]⟩
      | some pool =>
          refine .inl ⟨by simp [World.reaches, context], ?_⟩
          simp only [dispatching, context]
          exact queueing pool

theorem withNamed_calm {α : Type} {table : Table α} {name : Name} {use : α → State}
    (calm : ∀ value, State.Calm may shared world stack (use value)) :
    State.Calm may shared world stack (withNamed world stack table name use) := by
  unfold withNamed
  split
  · exact refusing_calm
  · exact calm _

theorem withReceipt_calm {name : Name} {use : Receipt → State}
    (receipts : ∀ name receipt, world.receipts.find? name = some receipt →
      may receipt.deferred)
    (calm : ∀ receipt, may receipt.deferred → State.Calm may shared world stack (use receipt)) :
    State.Calm may shared world stack (withReceipt world stack name use) := by
  unfold withReceipt
  split
  · exact refusing_calm
  · next receipt lookup => exact calm receipt (receipts name receipt lookup)

theorem withAwaiter_calm {name : Name} {use : Nat → State}
    (receipts : ∀ name receipt, world.receipts.find? name = some receipt →
      may receipt.deferred)
    (calm : ∀ deferred, may deferred → State.Calm may shared world stack (use deferred)) :
    State.Calm may shared world stack (withAwaiter world stack name use) := by
  refine withReceipt_calm receipts ?_
  intro receipt allowed
  split
  · exact refusing_calm
  · exact calm _ allowed

theorem performing_calm {task : Task} {reply : Reply} (calm : world.Calm may shared later)
    (plain : (Control.task task).isPlain = true) :
    State.Calm may shared world stack (.performing later stack task reply) :=
  ⟨calm, ⟨[.answering reply], rfl, rfl⟩, plain⟩

/-- A receipt for a fresh deferred is given out. -/
theorem putFresh_calm (receipt : Name) (raw : Bool) (fresh : shared world.deferreds.size) :
    world.Calm may shared
      (world.newDeferred.1.putReceipt receipt world.deferreds.size raw) := by
  refine .trans (.newDeferred world) (.putReceipt receipt raw fresh ?_)
  simp [World.newDeferred]

theorem makingPending_calm {receipt writer : Name} {raw : Bool}
    (fresh : shared world.deferreds.size) :
    State.Calm may shared world stack (makingPending world stack receipt raw writer) :=
  disposing_calm ((putFresh_calm receipt raw fresh).trans (.same rfl rfl rfl rfl))

theorem makingReady_calm {receipt : Name} {raw : Bool} {outcome : Outcome} :
    State.Calm may shared world stack (makingReady world stack receipt raw outcome) :=
  ⟨.newDeferred world,
    ⟨[.placing receipt raw world.deferreds.size, .answering .done], rfl, rfl⟩, rfl⟩

theorem polling_calm {deferred : Nat} {waker : Waker} (allowed : may deferred)
    (known : shared deferred) :
    State.Calm may shared world stack (polling world stack deferred waker) := by
  unfold polling
  split
  · exact replying_calm (.refl world)
  · split
    · exact ⟨.refl world, ⟨[], rfl, rfl⟩, rfl⟩
    · exact ⟨.refl world, ⟨[], rfl, rfl⟩, rfl⟩
    · split
      · exact replying_calm (.retrieve deferred allowed)
      · have still (found : Deferred) : (found.keepWaker waker).progress = found.progress := by
          unfold Deferred.keepWaker
          split
          · split <;> rfl
          · rfl
        refine replying_calm (.modifyDeferred deferred ?_ (.inr ?_) (.inl known))
        · intro found _
          rw [still]
          exact .refl _
        · intro found taken
          rwa [still] at taken

theorem collecting_calm {waiter : Nat}
    (waiters : ∀ number found, world.waiters.get? number = some found →
      may found.deferred) :
    State.Calm may shared world stack (collecting world stack waiter) := by
  unfold collecting
  split
  · exact replying_calm (.refl world)
  · next found lookup =>
      have released : world.Calm may shared
          (world.modifyWaiter waiter fun waiter => { waiter with run := none }) :=
        .same rfl rfl rfl rfl
      simp only
      split
      · exact replying_calm (.refl world)
      · exact disposing_calm released
      · exact disposing_calm
          (released.trans (.retrieve found.deferred (waiters waiter found lookup)))

theorem starting_calm {machine : Machine} {scheduler : Scheduler} {observer : Observer}
    {waiting : Nat → Frame} (calm : world.Calm may shared later)
    (plain : ∀ number, (waiting number).isPlain = true) :
    State.Calm may shared world stack (starting later stack machine scheduler observer waiting) :=
  ⟨calm.trans (.newActivation machine scheduler observer),
    ⟨[waiting later.activations.size], rfl, by simp [plain]⟩, rfl⟩

theorem startingAwaitable_calm {handle receipt : Name} {machine : Machine}
    {scheduler : Scheduler} {early : Bool} (fresh : shared world.deferreds.size) :
    State.Calm may shared world stack
      (startingAwaitable world stack handle machine scheduler receipt early) := by
  unfold startingAwaitable
  simp only
  split
  · exact starting_calm (putFresh_calm receipt false fresh) fun _ => rfl
  · exact .above [.placing receipt false world.deferreds.size] rfl
      (starting_calm (.newDeferred world) fun _ => rfl)

theorem takingQueued_calm {name : Name} {index : Nat} {use : Continuation → Task}
    (plain : ∀ continuation, (Control.task (use continuation)).isPlain = true) :
    State.Calm may shared world stack (takingQueued world stack name index use) := by
  refine withNamed_calm ?_
  intro queue
  split
  · exact performing_calm (.same rfl rfl rfl rfl) (plain _)
  · exact refusing_calm

theorem turning_calm {name : Name} {loop : Nat} :
    State.Calm may shared world stack (turning world stack name loop) := by
  unfold turning
  split
  · exact parking_calm
  · exact ⟨.same rfl rfl rfl rfl, ⟨[.turning name loop], rfl, rfl⟩, rfl⟩

theorem driving_calm {name : Name} {drive : World → Nat → State}
    (calm : ∀ later loop, world.Calm may shared later →
      State.Calm may shared later stack (drive later loop)) :
    State.Calm may shared world stack (driving world stack name drive) := by
  refine withNamed_calm ?_
  intro loop
  have erased : world.Calm may shared
      { world with ownedLoops := world.ownedLoops.erase name } := .same rfl rfl rfl rfl
  exact (calm _ loop erased).beyond erased

theorem makingLoop_calm {name : Name} :
    State.Calm may shared world stack (makingLoop world stack name) :=
  disposing_calm (.same rfl rfl rfl rfl)

theorem makingRuntime_calm {name : Name} {workers : Nat} {threadName : String} :
    State.Calm may shared world stack (makingRuntime world stack name workers threadName) := by
  unfold makingRuntime
  split
  · exact ⟨.refl world, ⟨[], rfl, rfl⟩, rfl⟩
  · exact disposing_calm (.same rfl rfl rfl rfl)

theorem droppingRuntime_calm {name : Name} :
    State.Calm may shared world stack (droppingRuntime world stack name) := by
  refine withNamed_calm ?_
  intro pool
  split
  · exact refusing_calm
  · exact performing_calm (.same rfl rfl rfl rfl) rfl

theorem runningMachine_calm {threadName : String} {pool : Nat} {machine : Machine} :
    State.Calm may shared world stack (runningMachine world stack threadName pool machine) := by
  have added : world.Calm may shared world.newDeferred.1 := .newDeferred world
  refine .above [.thread world.thread] rfl ?_
  unfold runningMachine
  exact starting_calm (added.trans (.same rfl rfl rfl rfl)) fun _ => rfl

theorem working_calm {pool : Nat} :
    State.Calm may shared world stack (working world stack pool) := by
  unfold working
  split
  · exact replying_calm (.refl world)
  · split
    · next number _ _ =>
        exact ⟨.same rfl rfl rfl rfl, ⟨[.worker pool number world.thread], rfl, rfl⟩, rfl⟩
    · exact replying_calm (.refl world)

/-- Every request is calm, and takes only what user code can name. -/
theorem requesting_calm {request : Request} {chronicle : Chronicle} {below : Stack}
    (custody : Custody world.ledger chronicle [] below)
    (named : ∀ deferred, world.ledger.Public chronicle deferred → shared deferred)
    (fresh : shared world.deferreds.size) :
    State.Calm (world.ledger.Public chronicle) shared world stack
      (requesting world stack request) := by
  have receipts := custody.receipts
  have waiters (number : Nat) (found : Waiter)
      (lookup : world.waiters.get? number = some found) :=
    (custody.waiters number found lookup).isPublic
  have known (deferred : Nat) (isPublic : world.ledger.Public chronicle deferred) :
      shared deferred ∧ (world.deferreds.get? deferred).isSome = true :=
    ⟨named deferred isPublic, isPublic.1⟩
  cases request with
  | pending receipt raw writer => exact makingPending_calm fresh
  | ready receipt raw outcome => exact makingReady_calm
  | complete writer outcome =>
      exact withNamed_calm fun _ => performing_calm (.same rfl rfl rfl rfl) rfl
  | dropWriter writer =>
      exact withNamed_calm fun _ => performing_calm (.same rfl rfl rfl rfl) rfl
  | toAwaiter receipt =>
      refine withReceipt_calm receipts ?_
      intro found allowed
      obtain ⟨handy, present⟩ := known found.deferred allowed
      split
      · exact replying_calm (.putReceipt receipt false handy present)
      · exact refusing_calm
  | readiness receipt =>
      exact withReceipt_calm receipts fun _ _ => replying_calm (.refl world)
  | isComplete deferred => exact replying_calm (.refl world)
  | onComplete receipt body =>
      exact withReceipt_calm receipts fun found allowed =>
        .above [.answering .done] rfl
          (registering_calm (.refl world) (known found.deferred allowed).1)
  | retrieve receipt =>
      simp only [requesting]
      refine withAwaiter_calm receipts ?_
      intro deferred allowed
      exact replying_calm (.retrieve deferred allowed)
  | dropReceipt receipt =>
      exact withReceipt_calm receipts fun _ _ => replying_calm (.same rfl rfl rfl rfl)
  | suspend receipt resumeAt =>
      exact withAwaiter_calm receipts fun _ _ => replying_calm (.refl world)
  | dispatch receipt raw infallible target work =>
      rcases @dispatching_calm (world.ledger.Public chronicle) shared world stack target
        infallible work
        (fun deferred => .placing receipt raw deferred :: .answering .done :: stack)
        with ⟨-, calm⟩ | ⟨-, -, outside⟩
      · exact .above [.placing receipt raw world.deferreds.size, .answering .done] rfl calm
      · simp only [requesting, outside]
        exact ⟨.refl world, ⟨[], rfl, rfl⟩, rfl⟩
  | newWaker waker body => exact replying_calm (.same rfl rfl rfl rfl)
  | poll receipt waker =>
      exact withNamed_calm fun _ =>
        withAwaiter_calm receipts fun deferred allowed =>
          polling_calm allowed (known deferred allowed).1
  | wait receipt =>
      simp only [requesting]
      refine withAwaiter_calm receipts ?_
      intro deferred allowed
      exact waiting_calm (.same rfl rfl rfl rfl) (known deferred allowed).1
  | collect waiter => exact collecting_calm waiters
  | schedule scheduler body => exact performing_calm (.refl world) rfl
  | newLoop loop => exact makingLoop_calm
  | findLoop loop => exact withNamed_calm fun _ => replying_calm (.refl world)
  | turnLoop loop =>
      simp only [requesting]
      refine driving_calm ?_
      intro later found _
      exact turning_calm
  | runLoop loop =>
      simp only [requesting]
      refine driving_calm ?_
      intro later found _
      exact runningNext_calm
  | runLoopUntil loop deadline clock condition =>
      simp only [requesting]
      refine driving_calm ?_
      intro later found _
      exact deciding_calm
  | dropLoop loop =>
      simp only [requesting]
      refine driving_calm ?_
      intro later found _
      exact performing_calm (.refl later) rfl
  | newQueue queue => exact replying_calm (.same rfl rfl rfl rfl)
  | findQueue queue => exact withNamed_calm fun _ => replying_calm (.refl world)
  | queueLength queue => exact withNamed_calm fun _ => replying_calm (.refl world)
  | runQueued queue index => exact takingQueued_calm fun _ => rfl
  | dropQueued queue index => exact takingQueued_calm fun _ => rfl
  | newRuntime runtime workers threadName => exact makingRuntime_calm
  | dropRuntime runtime => exact droppingRuntime_calm
  | findPool runtime => exact withNamed_calm fun _ => replying_calm (.refl world)
  | isShutdown runtime => exact withNamed_calm fun _ => replying_calm (.refl world)
  | enter runtime body =>
      exact withNamed_calm fun pool =>
        ⟨.same rfl rfl rfl rfl, ⟨[.context world.thread.context pool], rfl, rfl⟩, rfl⟩
  | run threadName runtime machine => exact withNamed_calm fun _ => runningMachine_calm
  | runtimes => exact replying_calm (.refl world)
  | queuedJobs runtime => exact withNamed_calm fun _ => replying_calm (.refl world)
  | work runtime => exact withNamed_calm fun _ => working_calm
  | start handle machine scheduler observer => exact starting_calm (.refl world) fun _ => rfl
  | startAwaitable handle machine scheduler receipt early => exact startingAwaitable_calm fresh
  | cancel handle =>
      refine withNamed_calm fun machine => replying_calm ?_
      exact (recorded_calm _).trans (.modifyActivation machine fun _ => rfl)
  | handle handle => exact withNamed_calm fun _ => replying_calm (.refl world)
  | isFinished machine => exact replying_calm (.refl world)
  | dropHandle handle =>
      exact withNamed_calm fun _ => performing_calm (.same rfl rfl rfl rfl) rfl
  | newMachine name machine =>
      exact replying_calm (.trans (.newKept machine) (.same rfl rfl rfl rfl))
  | stepMachine machine position =>
      exact withNamed_calm fun _ => ⟨.refl world, ⟨[], rfl, rfl⟩, rfl⟩
  | dropMachine machine => exact withNamed_calm fun _ => replying_calm (.same rfl rfl rfl rfl)
  | newRegion => exact replying_calm (.same rfl rfl rfl rfl)
  | load cell => exact withNamed_calm fun _ => replying_calm (.refl world)
  | store cell content => exact replying_calm (.same rfl rfl rfl rfl)
  | note entry => exact replying_calm (.same rfl rfl rfl rfl)
  | record record => exact replying_calm (recorded_calm record)
  | threadName => exact replying_calm (.refl world)
  | thread name body =>
      exact ⟨.same rfl rfl rfl rfl, ⟨[.thread world.thread], rfl, rfl⟩, rfl⟩
  | attempt body => exact ⟨.refl world, ⟨[.attempting], rfl, rfl⟩, rfl⟩

end Stepwise.State
