import Stepwise.Proofs.Course.Standing
import Stepwise.Proofs.Pools.Quiet

/-!
# Small steps by what they stir

A small step is quiet, or it is one of a few: a job is queued, taken or dropped with its
pool, a deferred is completed, a runtime is opened or dropped, or the run goes into or out
of a call inside a runtime, or to another thread and back.
-/

namespace Stepwise

namespace World

/-- The world after a thread, or a call inside a runtime, has ended with a reply. -/
def left (world : World) : Frame → World
  | .context saved pool => world.leave pool saved
  | .blocking _ pool _ => world.leave pool none
  | .thread saved => { world with thread := saved }
  | .worker pool number saved =>
      { world.modifyPool pool (·.modifyWorker number fun worker =>
          { worker with busy := false, context := world.thread.context }) with thread := saved }
  | _ => world

/-- The world after a panic has left a thread, or a call inside a runtime. -/
def broken (world : World) : Frame → World
  | .context _ pool => world.abort pool
  | .blocking _ pool _ => world.abort pool
  | .thread saved => { world with thread := saved }
  | .worker pool number saved =>
      { world.modifyPool pool (·.modifyWorker number fun worker =>
          { worker with busy := false, alive := false }) with thread := saved }
  | _ => world

theorem keeps_left (world : World) (frame : Frame) : world.Keeps (world.left frame) := by
  cases frame <;> exact .same rfl rfl

theorem keeps_broken (world : World) (frame : Frame) : world.Keeps (world.broken frame) := by
  cases frame <;> exact .same rfl rfl

end World

namespace State

/-- Whether the small step takes down a frame at which a thread, or a call inside a runtime,
begins. -/
def crosses (state : State) : Bool :=
  match state.control, state.stack with
  | .reply _, frame :: _ => frame.isBorder
  | .unwind _, frame :: _ => frame.isBorder
  | _, _ => false

/-- The small step hands a job over to be queued on a pool: work that it dispatches, or what
is on its way to the pool as a scheduler. -/
def Queues (state : State) (pool : Nat) (job : Continuation) : Prop :=
  (∃ work, job = .job state.world.deferreds.size work ∧
    state.Sends pool state.world.deferreds.size) ∨
  state.control = .task (.schedule (.pool pool) job)

/-- The small steps that are not quiet, each with the state before and the state after. -/
inductive Stirs : State → State → Prop where
  /-- A pool that accepts jobs is given one. -/
  | queued {state : State} {later : World} {pool : Nat} {job : Continuation} {new : Stack}
      {reply : Reply} :
      state.crosses = false → state.world.Quiet later →
        state.world.acceptsJobs pool = true → state.Queues pool job →
          new.all Frame.isQuiet = true →
            (∀ asset, Holding.amount asset (Stack.holdings new) = 0) →
              Stirs state ⟨later.modifyPool pool (·.push job), new ++ state.base, .reply reply⟩
  | published {world : World} {stack : Stack} {deferred : Nat} {outcome : Outcome}
      {found : Deferred} {record : Record} :
      world.deferreds.get? deferred = some found →
        Stirs ⟨world, stack, .task (.publish deferred outcome)⟩
          ⟨(world.modifyDeferred deferred (·.publish outcome)).record record,
            .firing deferred found.continuations :: stack, .reply .done⟩
  /-- A pool is shut down; its jobs are dropped next. -/
  | closed {world later : World} {stack : Stack} {pool : Nat} {found : Pool} :
      world.pools.get? pool = some found → found.isBusy = false →
        (world.modifyPool pool (·.close)).Quiet later →
          Stirs ⟨world, stack, .task (.discard (.runtime pool))⟩
            ⟨later, .disposing (found.jobs.map .continuation) :: .recording .runtimeShutDown ::
              stack, .reply .done⟩
  /-- A writer is displaced by another one of its name. -/
  | overwrote {world later : World} {stack : Stack} {rest : Reply → Program}
      {receipt name : Name} {raw : Bool} {other : Nat} :
      world.writers.find? name = some other → world.Quiet later →
        Stirs ⟨world, stack, .program (.call (.pending receipt raw name) rest)⟩
          ⟨later, [.disposing [.writer other], .answering .done, .program rest] ++ stack,
            .reply .done⟩
  | opened {world later : World} {stack : Stack} {rest : Reply → Program} {name : Name}
      {workers : Nat} {threadName : String} :
      world.runtimes.find? name = none →
        { world with
          pools := world.pools.push (.fresh world.pools.size workers threadName)
          runtimes := world.runtimes.insert name world.pools.size }.Quiet later →
          Stirs ⟨world, stack, .program (.call (.newRuntime name workers threadName) rest)⟩
            ⟨later, .program rest :: stack, .reply .done⟩
  /-- A runtime is opened, and displaces another one of its name. -/
  | reopened {world later : World} {stack : Stack} {rest : Reply → Program} {name : Name}
      {workers other : Nat} {threadName : String} :
      world.runtimes.find? name = some other →
        { world with
          pools := world.pools.push (.fresh world.pools.size workers threadName)
          runtimes := world.runtimes.insert name world.pools.size }.Quiet later →
          Stirs ⟨world, stack, .program (.call (.newRuntime name workers threadName) rest)⟩
            ⟨later, [.disposing [.runtime other], .answering .done, .program rest] ++ stack,
              .reply .done⟩
  /-- A runtime that is not in use is about to be dropped. -/
  | dropped {world : World} {stack : Stack} {rest : Reply → Program} {name : Name}
      {pool : Nat} {reply : Reply} :
      world.runtimes.find? name = some pool → world.isInUse pool = false →
        Stirs ⟨world, stack, .program (.call (.dropRuntime name) rest)⟩
          ⟨{ world with runtimes := world.runtimes.erase name },
            .answering reply :: .program rest :: stack, .task (.discard (.runtime pool))⟩
  /-- A runtime displaced by another one of its name is about to be dropped. -/
  | shed {world : World} {stack : Stack} {reply : Reply} {pool : Nat} :
      Stirs ⟨world, .disposing [.runtime pool] :: stack, .reply reply⟩
        ⟨world, .disposing [] :: stack, .task (.discard (.runtime pool))⟩
  | entered {world : World} {stack : Stack} {rest : Reply → Program} {name : Name}
      {body : Program} {pool : Nat} :
      world.runtimes.find? name = some pool →
        Stirs ⟨world, stack, .program (.call (.enter name body) rest)⟩
          ⟨State.entered world pool, .context world.thread.context pool :: .program rest :: stack,
            .program body⟩
  /-- A machine is started inside a runtime on a thread of its own. -/
  | ran {world later : World} {stack : Stack} {rest : Reply → Program} {name : Name}
      {threadName : String} {machine : Machine} {pool number deferred : Nat} :
      world.runtimes.find? name = some pool →
        (State.entered { world with thread := ⟨threadName, none⟩ } pool).Quiet later →
          Stirs ⟨world, stack, .program (.call (.run threadName name machine) rest)⟩
            ⟨later, [.blocking number pool deferred, .thread world.thread, .program rest] ++ stack,
              .task (.resume number)⟩
  | threaded {world : World} {stack : Stack} {rest : Reply → Program} {name : String}
      {body : Program} :
      Stirs ⟨world, stack, .program (.call (.thread name body) rest)⟩
        ⟨{ world with thread := ⟨name, none⟩ }, .thread world.thread :: .program rest :: stack,
          .program body⟩
  /-- An idle worker takes the oldest job. -/
  | took {world : World} {stack : Stack} {rest : Reply → Program} {name : Name}
      {pool number : Nat} {found : Pool} {job : Continuation} {jobs : List Continuation} :
      world.pools.get? pool = some found → found.jobs = job :: jobs →
        found.idleWorker? = some number →
          Stirs ⟨world, stack, .program (.call (.work name) rest)⟩
            ⟨{ world.modifyPool pool fun pool =>
                { pool with jobs := jobs }.modifyWorker number fun worker =>
                  { worker with busy := true } with
                thread := ⟨found.workerName number,
                  found.workers[number]?.bind (·.context)⟩ },
              .worker pool number world.thread :: .program rest :: stack, .task (.run job)⟩
  /-- A thread, or a call inside a runtime, ends with a reply. -/
  | crossed {world : World} {stack : Stack} {frame : Frame} {reply : Reply} {after : State} :
      frame.isBorder = true → State.Quiet (world.left frame) stack after →
        Stirs ⟨world, frame :: stack, .reply reply⟩ after
  /-- A panic leaves a thread, or a call inside a runtime. -/
  | broke {world : World} {stack : Stack} {frame : Frame} {payload : Payload}
      {after : State} :
      frame.isBorder = true → State.Quiet (world.broken frame) stack after →
        Stirs ⟨world, frame :: stack, .unwind payload⟩ after

/-- Nothing bare is on the stack, but for what a request has just displaced. -/
def Tidy (state : State) : Prop :=
  state.stack.all Frame.isTidy = true ∨
    ∃ owned rest, state.stack = .disposing [owned] :: rest ∧ state.control = .reply .done ∧
      rest.all Frame.isTidy = true

variable {world later : World} {stack : Stack} {state : State} {pool : Nat}

/-! ## Dispatches -/

/-- Work that is sent to a pool which accepts jobs is queued there; any other dispatch is
quiet beneath what waits for it. -/
theorem dispatching_cases {target : Target} {infallible : Bool} {work : Program}
    {front base : Stack} {waiting : Nat → Stack} (quiet : front.all Frame.isQuiet = true)
    (waits : (waiting world.deferreds.size).all Frame.isQuiet = true) :
    (∃ pool, world.addressee target = some pool ∧ world.acceptsJobs pool = true ∧
      dispatching world (front ++ base) target infallible work (fun number =>
          waiting number ++ base) =
        ⟨world.newDeferred.1.modifyPool pool (·.push (.job world.deferreds.size work)),
          waiting world.deferreds.size ++ base, .reply .done⟩) ∨
    State.Quiet world base (dispatching world (front ++ base) target infallible work
      (fun number => waiting number ++ base)) := by
  have added : world.Quiet world.newDeferred.1 := .newDeferred world
  have queueing (pool : Nat) :
      (world.acceptsJobs pool = true ∧
        (if world.acceptsJobs pool then
          State.replying (world.newDeferred.1.modifyPool pool
            (·.push (.job world.deferreds.size work))) (waiting world.deferreds.size ++ base) .done
        else
          ⟨world.newDeferred.1, .recording .dispatchedAfterShutdown ::
              (waiting world.deferreds.size ++ base),
            .task (.discard (.continuation (.job world.deferreds.size work)))⟩) =
          ⟨world.newDeferred.1.modifyPool pool (·.push (.job world.deferreds.size work)),
            waiting world.deferreds.size ++ base, .reply .done⟩) ∨
      State.Quiet world base
        (if world.acceptsJobs pool then
          State.replying (world.newDeferred.1.modifyPool pool
            (·.push (.job world.deferreds.size work))) (waiting world.deferreds.size ++ base) .done
        else
          ⟨world.newDeferred.1, .recording .dispatchedAfterShutdown ::
              (waiting world.deferreds.size ++ base),
            .task (.discard (.continuation (.job world.deferreds.size work)))⟩) := by
    by_cases accepts : world.acceptsJobs pool = true
    · left
      rw [if_pos accepts]
      exact ⟨accepts, rfl⟩
    · right
      rw [if_neg accepts]
      refine ⟨added, ⟨.recording .dispatchedAfterShutdown :: waiting world.deferreds.size, rfl,
        ?_⟩, rfl⟩
      simpa [Frame.isQuiet, Frame.isTidy, Frame.isBorder] using waits
  cases target with
  | immediate =>
      refine .inr ⟨added, ⟨.working world.deferreds.size :: waiting world.deferreds.size, rfl, ?_⟩,
        rfl⟩
      simpa [Frame.isQuiet, Frame.isTidy, Frame.isBorder] using waits
  | pool pool =>
      exact (queueing pool).imp_left fun queued => ⟨pool, rfl, queued⟩
  | context =>
      cases context : world.thread.context with
      | none =>
          refine .inr ?_
          simp only [dispatching, context]
          exact ⟨.refl world, ⟨front, rfl, quiet⟩, rfl⟩
      | some pool =>
          simp only [dispatching, context]
          exact (queueing pool).imp_left fun queued => ⟨pool, context, queued⟩

/-- What dispatches crosses no border. -/
theorem Dispatching.crosses {target : Target} {work : Program} {launcher : Option (Place × Nat)}
    (dispatching : state.Dispatching target work launcher) : state.crosses = false := by
  cases dispatching <;> rfl

/-- A small step comes down to the dispatch of a work, once it has changed a body at most. -/
def HandsOver (state : State) (target : Target) (work : Program) : Prop :=
  ∃ (later : World) (front : Stack) (infallible : Bool) (waiting : Nat → Stack),
    state.world.Quiet later ∧ later.deferreds = state.world.deferreds ∧
    front.all Frame.isQuiet = true ∧
    (∀ deferred, (waiting deferred).all Frame.isQuiet = true ∧
      ∀ asset, Holding.amount asset (Stack.holdings (waiting deferred)) = 0) ∧
    state.next = dispatching later (front ++ state.base) target infallible work
      fun deferred => waiting deferred ++ state.base

theorem handsOver_of_launch {target : Target} {work : Program} (place : Place) (number : Nat)
    (quiet : state.world.Quiet later) (same : later.deferreds = state.world.deferreds)
    (goes : state.next = dispatching later state.base target false work
      fun deferred => .launched place number deferred :: state.base) :
    state.HandsOver target work :=
  ⟨later, [], false, fun deferred => [.launched place number deferred], quiet, same, rfl,
    fun _ => ⟨rfl, fun _ => rfl⟩, goes⟩

/-- A small step that dispatches work hands it over. -/
theorem Dispatching.handsOver {target : Target} {work : Program}
    {launcher : Option (Place × Nat)} (dispatching : state.Dispatching target work launcher) :
    state.HandsOver target work := by
  have touched (place : Place) (body : Body) :
      state.world.Quiet (state.world.modifyBody place fun _ => body) ∧
        (state.world.modifyBody place fun _ => body).deferreds = state.world.deferreds :=
    ⟨.modifyBody place _, World.deferreds_modifyBody place _⟩
  cases dispatching with
  | @request world stack receipt raw infallible target work rest =>
      exact ⟨world, [.program rest], infallible,
        fun deferred => [.placing receipt raw deferred, .answering .done, .program rest],
        .refl world, rfl, rfl, fun _ => ⟨rfl, fun _ => rfl⟩, rfl⟩
  | @first world stack place pipeline seed target work body unused launches =>
      obtain ⟨begun, kept⟩ := touched place (.pipeline { pipeline with seed := none })
      refine handsOver_of_launch place 0
        (begun.trans (.modifyBody place fun _ =>
          .pipeline ({ pipeline with seed := none }.useStage 0)))
        ((World.deferreds_modifyBody place _).trans kept) ?_
      simp only [next, carryingOut, runningStep, body, steppingPipeline, unused,
        nonempty_of_launch? launches, Bool.false_eq_true, if_false]
      exact launchingStage_of_launch? launches
  | @following world stack place pipeline number next value reply target work body found
      launches =>
      obtain ⟨used, same⟩ := touched place (.pipeline (pipeline.useStage next))
      refine handsOver_of_launch place next used same ?_
      simp only [State.next, returning, inspectedValue, body, found]
      exact launchingStage_of_launch? launches
  | @cube world stack place demo reply body =>
      obtain ⟨counted, same⟩ :=
        touched place (.cubeRoot { demo with dispatched := demo.dispatched + 1 })
      refine handsOver_of_launch place 0 counted same ?_
      simp only [next, returning, announcedProgress, body]
      rfl
  | @root world stack place demo cubed reply body =>
      obtain ⟨counted, same⟩ :=
        touched place (.cubeRoot { demo with dispatched := demo.dispatched + 1 })
      refine handsOver_of_launch place 1 counted same ?_
      simp only [next, returning, announcedProgress, body]
      rfl

theorem acceptsJobs_of_pools (same : later.pools = world.pools) :
    later.acceptsJobs pool = world.acceptsJobs pool := by
  simp [World.acceptsJobs, same]

theorem addressee_of_thread {target : Target} (same : later.thread = world.thread) :
    later.addressee target = world.addressee target := by
  cases target <;> simp [World.addressee, same]

/-- A small step that dispatches work is quiet, or queues it. -/
theorem Dispatching.next_cases {target : Target} {work : Program}
    {launcher : Option (Place × Nat)} (dispatching : state.Dispatching target work launcher) :
    State.Quiet state.world state.base state.next ∨ Stirs state state.next := by
  obtain ⟨later, front, infallible, waiting, changed, same, quiet, waits, goes⟩ :=
    dispatching.handsOver
  rw [goes]
  rcases dispatching_cases quiet (waits _).1 with ⟨pool, addressed, accepts, queued⟩ | calm
  · rw [queued, same]
    rw [acceptsJobs_of_pools changed.pools] at accepts
    rw [addressee_of_thread changed.thread] at addressed
    exact .inr (.queued dispatching.crosses (changed.trans (.newDeferred later)) accepts
      (.inl ⟨work, rfl, rfl, target, work, dispatching.dispatch?, addressed⟩)
      (waits _).1 (waits _).2)
  · exact .inl (calm.beyond changed)

/-! ## Requests -/

theorem withNamed_quiet {α : Type} {table : Table α} {name : Name} {use : α → State}
    (quiet : ∀ value, State.Quiet world stack (use value)) :
    State.Quiet world stack (withNamed world stack table name use) := by
  unfold withNamed
  split
  · exact refusing_quiet
  · exact quiet _

theorem withReceipt_quiet {name : Name} {use : Receipt → State}
    (quiet : ∀ receipt, State.Quiet world stack (use receipt)) :
    State.Quiet world stack (withReceipt world stack name use) := by
  unfold withReceipt
  split
  · exact refusing_quiet
  · exact quiet _

theorem withAwaiter_quiet {name : Name} {use : Nat → State}
    (quiet : ∀ deferred, State.Quiet world stack (use deferred)) :
    State.Quiet world stack (withAwaiter world stack name use) := by
  refine withReceipt_quiet fun receipt => ?_
  split
  · exact refusing_quiet
  · exact quiet _

theorem polling_quiet {deferred : Nat} {waker : Waker} :
    State.Quiet world stack (polling world stack deferred waker) := by
  unfold polling
  split
  · exact replying_quiet (.refl world)
  · split
    · exact ⟨.refl world, ⟨[], rfl, rfl⟩, rfl⟩
    · exact ⟨.refl world, ⟨[], rfl, rfl⟩, rfl⟩
    · split
      · exact replying_quiet (.retrieve deferred)
      · refine replying_quiet (.modifyDeferred deferred ?_ ?_)
        · intro found continuation member
          unfold Deferred.keepWaker
          split
          · split <;> exact member
          · exact member
        · intro found complete
          unfold Deferred.keepWaker at complete
          split at complete
          · split at complete <;> exact complete
          · exact complete

theorem collecting_quiet {waiter : Nat} :
    State.Quiet world stack (collecting world stack waiter) := by
  unfold collecting
  split
  · exact replying_quiet (.refl world)
  · next found lookup =>
      have released : world.Quiet
          (world.modifyWaiter waiter fun waiter => { waiter with run := none }) :=
        .same rfl rfl rfl rfl rfl
      simp only
      split
      · exact replying_quiet (.refl world)
      · refine disposing_quiet ?_ released
        cases found.run <;> rfl
      · refine disposing_quiet ?_ (released.trans (.retrieve _))
        cases found.run <;> rfl

theorem starting_quiet {machine : Machine} {scheduler : Scheduler} {observer : Observer}
    {waiting : Nat → Frame} (quiet : world.Quiet later)
    (mild : ∀ number, (waiting number).isQuiet = true) :
    State.Quiet world stack (starting later stack machine scheduler observer waiting) :=
  ⟨quiet.trans (.newActivation machine.body scheduler observer),
    ⟨[waiting later.activations.size], rfl, by simp [mild]⟩, rfl⟩

theorem startingAwaitable_quiet {handle receipt : Name} {machine : Machine}
    {scheduler : Scheduler} {early : Bool} :
    State.Quiet world stack
      (startingAwaitable world stack handle machine scheduler receipt early) := by
  have added : world.Quiet world.newDeferred.1 := .newDeferred world
  unfold startingAwaitable
  simp only
  split
  · exact starting_quiet (added.trans (.same rfl rfl rfl rfl rfl)) fun _ => rfl
  · exact Quiet.above [.placing receipt false world.deferreds.size] rfl
      (starting_quiet added fun _ => rfl)

theorem takingQueued_quiet {name : Name} {index : Nat} {use : Continuation → Task}
    (mild : ∀ continuation, (Control.task (use continuation)).isQuiet = true) :
    State.Quiet world stack (takingQueued world stack name index use) := by
  refine withNamed_quiet fun queue => ?_
  split
  · exact performing_quiet (.same rfl rfl rfl rfl rfl) (mild _)
  · exact refusing_quiet

theorem turning_quiet {name : Name} {loop : Nat} :
    State.Quiet world stack (turning world stack name loop) := by
  unfold turning
  split
  · exact parking_quiet
  · exact ⟨.same rfl rfl rfl rfl rfl, ⟨[.turning name loop], rfl, rfl⟩, rfl⟩

theorem driving_quiet {name : Name} {drive : World → Nat → State}
    (quiet : ∀ later loop, State.Quiet later stack (drive later loop)) :
    State.Quiet world stack (driving world stack name drive) := by
  refine withNamed_quiet fun loop => ?_
  have erased : world.Quiet { world with ownedLoops := world.ownedLoops.erase name } :=
    .same rfl rfl rfl rfl rfl
  exact (quiet _ loop).beyond erased

/-- A pending deferred is made quietly, or displaces a writer. -/
theorem makingPending_cases {rest : Reply → Program} (receipt : Name) (raw : Bool)
    (writer : Name) :
    State.Quiet world stack (makingPending world (.program rest :: stack) receipt raw writer) ∨
      Stirs ⟨world, stack, .program (.call (.pending receipt raw writer) rest)⟩
        (makingPending world (.program rest :: stack) receipt raw writer) := by
  have named : world.Quiet { (world.newDeferred.1.putReceipt receipt world.deferreds.size raw)
      with writers := world.writers.insert writer world.deferreds.size } :=
    (World.Quiet.newDeferred world).trans (.same rfl rfl rfl rfl rfl)
  simp only [makingPending]
  split
  · next other found => exact .inr (.overwrote found named)
  · exact .inl (Quiet.above [.program rest] rfl (replying_quiet named))

/-- A request is quiet, or stirs. -/
theorem requesting_cases {request : Request} {rest : Reply → Program} :
    State.Quiet world stack (next ⟨world, stack, .program (.call request rest)⟩) ∨
      Stirs ⟨world, stack, .program (.call request rest)⟩
        (next ⟨world, stack, .program (.call request rest)⟩) := by
  -- Whatever is quiet above the rest of the program is quiet.
  have above {after : State} (quiet : State.Quiet world (.program rest :: stack) after) :
      State.Quiet world stack after := Quiet.above [.program rest] rfl quiet
  have fetched {α : Type} {table : Table α} {name : Name} {use : α → State}
      (found : ∀ value, table.find? name = some value →
        State.Quiet world stack (use value) ∨
          Stirs ⟨world, stack, .program (.call request rest)⟩ (use value)) :
      State.Quiet world stack (withNamed world (.program rest :: stack) table name use) ∨
        Stirs ⟨world, stack, .program (.call request rest)⟩
          (withNamed world (.program rest :: stack) table name use) := by
    unfold withNamed
    split
    · exact .inl (above refusing_quiet)
    · next value lookup => exact found value lookup
  simp only [next]
  cases request with
  | dispatch receipt raw infallible target work =>
      exact Dispatching.request.next_cases
  | pending receipt raw writer => exact makingPending_cases receipt raw writer
  | newRuntime runtime workers threadName =>
      by_cases positive : workers = 0
      · refine .inl (above ?_)
        simp only [requesting, makingRuntime, positive, if_true]
        exact ⟨.refl world, ⟨[], rfl, rfl⟩, rfl⟩
      · have reported {later : World} : later.Quiet (later.record (.runtimeStarted workers)) :=
          recorded_quiet (.refl later)
        simp only [requesting, makingRuntime, positive, if_false]
        cases found : world.runtimes.find? runtime with
        | none => exact .inr (.opened found (reported.trans (.same rfl rfl rfl rfl rfl)))
        | some other => exact .inr (.reopened found (reported.trans (.same rfl rfl rfl rfl rfl)))
  | dropRuntime runtime =>
      refine fetched fun pool lookup => ?_
      split
      · exact .inl (above refusing_quiet)
      · next unused => exact .inr (.dropped lookup (Bool.eq_false_iff.mpr unused))
  | enter runtime body => exact fetched fun pool lookup => .inr (.entered lookup)
  | run threadName runtime machine =>
      refine fetched fun pool lookup => .inr (.ran lookup ?_)
      exact (World.Quiet.newDeferred _).trans
        (.newActivation machine.body .inline (.writer world.deferreds.size))
  | thread name body => exact .inr .threaded
  | work runtime =>
      refine fetched fun pool lookup => ?_
      simp only [working]
      split
      · exact .inl (above (replying_quiet (.refl world)))
      · next found present =>
          split
          · next job jobs number queued idle => exact .inr (.took present queued idle)
          · exact .inl (above (replying_quiet (.refl world)))
  | ready receipt raw outcome =>
      refine .inl (above ⟨.newDeferred world, ?_, rfl⟩)
      exact ⟨[.placing receipt raw world.deferreds.size, .answering .done], rfl, rfl⟩
  | complete writer outcome =>
      exact .inl (above (withNamed_quiet fun _ => performing_quiet (.same rfl rfl rfl rfl rfl) rfl))
  | dropWriter writer =>
      exact .inl (above (withNamed_quiet fun _ => performing_quiet (.same rfl rfl rfl rfl rfl) rfl))
  | toAwaiter receipt =>
      refine .inl (above (withReceipt_quiet fun found => ?_))
      split
      · exact replying_quiet (.same rfl rfl rfl rfl rfl)
      · exact refusing_quiet
  | readiness receipt =>
      exact .inl (above (withReceipt_quiet fun _ => replying_quiet (.refl world)))
  | isComplete deferred => exact .inl (above (replying_quiet (.refl world)))
  | onComplete receipt body =>
      exact .inl (above (withReceipt_quiet fun found =>
        Quiet.above [.answering .done] rfl (registering_quiet (.refl world))))
  | retrieve receipt =>
      refine .inl (above ?_)
      simp only [requesting]
      exact withAwaiter_quiet fun deferred => replying_quiet (.retrieve deferred)
  | dropReceipt receipt =>
      exact .inl (above (withReceipt_quiet fun _ => replying_quiet (.same rfl rfl rfl rfl rfl)))
  | suspend receipt resumeAt =>
      exact .inl (above (withAwaiter_quiet fun _ => replying_quiet (.refl world)))
  | newWaker waker body => exact .inl (above (replying_quiet (.same rfl rfl rfl rfl rfl)))
  | poll receipt waker =>
      exact .inl (above (withNamed_quiet fun _ => withAwaiter_quiet fun _ => polling_quiet))
  | wait receipt =>
      refine .inl (above ?_)
      simp only [requesting]
      exact withAwaiter_quiet fun _ => waiting_quiet (.same rfl rfl rfl rfl rfl)
  | collect waiter => exact .inl (above collecting_quiet)
  | schedule scheduler body => exact .inl (above (performing_quiet (.refl world) rfl))
  | newLoop loop =>
      refine .inl (above (disposing_quiet ?_ (.same rfl rfl rfl rfl rfl)))
      exact isBare_restoreLoop _ loop world.loops.size
  | turnLoop loop =>
      refine .inl (above ?_)
      simp only [requesting]
      exact driving_quiet fun _ _ => turning_quiet
  | runLoop loop =>
      refine .inl (above ?_)
      simp only [requesting]
      exact driving_quiet fun _ _ => runningNext_quiet
  | runLoopUntil loop deadline clock condition =>
      refine .inl (above ?_)
      simp only [requesting]
      exact driving_quiet fun _ _ => deciding_quiet
  | dropLoop loop =>
      refine .inl (above ?_)
      simp only [requesting]
      exact driving_quiet fun later _ => performing_quiet (.refl later) rfl
  | newQueue queue => exact .inl (above (replying_quiet (.same rfl rfl rfl rfl rfl)))
  | runQueued queue index => exact .inl (above (takingQueued_quiet fun _ => rfl))
  | dropQueued queue index => exact .inl (above (takingQueued_quiet fun _ => rfl))
  | runtimes => exact .inl (above (replying_quiet (.refl world)))
  | start handle machine scheduler observer =>
      exact .inl (above (starting_quiet (.refl world) fun _ => rfl))
  | startAwaitable handle machine scheduler receipt early =>
      exact .inl (above startingAwaitable_quiet)
  | cancel handle =>
      refine .inl (above (withNamed_quiet fun machine => replying_quiet ?_))
      exact (recorded_quiet (.refl world)).trans
        (.modifyActivation machine fun _ idle => ⟨idle, rfl, rfl⟩)
  | isFinished machine => exact .inl (above (replying_quiet (.refl world)))
  | dropHandle handle =>
      exact .inl (above (withNamed_quiet fun _ => performing_quiet (.same rfl rfl rfl rfl rfl) rfl))
  | newMachine name machine => exact .inl (above (replying_quiet (.same rfl rfl rfl rfl rfl)))
  | stepMachine machine position =>
      exact .inl (above (withNamed_quiet fun _ => ⟨.refl world, ⟨[], rfl, rfl⟩, rfl⟩))
  | dropMachine machine =>
      exact .inl (above (withNamed_quiet fun _ => replying_quiet (.same rfl rfl rfl rfl rfl)))
  | newRegion => exact .inl (above (replying_quiet (.same rfl rfl rfl rfl rfl)))
  | store cell content => exact .inl (above (replying_quiet (.same rfl rfl rfl rfl rfl)))
  | note entry => exact .inl (above (replying_quiet (.same rfl rfl rfl rfl rfl)))
  | record record => exact .inl (above (replying_quiet (recorded_quiet (.refl world))))
  | threadName => exact .inl (above (replying_quiet (.refl world)))
  | attempt body => exact .inl (above ⟨.refl world, ⟨[.attempting], rfl, rfl⟩, rfl⟩)
  | findLoop _ | findQueue _ | queueLength _ | findPool _ | isShutdown _ | queuedJobs _
  | handle _ | load _ =>
      exact .inl (above (withNamed_quiet fun _ => replying_quiet (.refl world)))

/-! ## Steps of machines that dispatch nothing -/

theorem launchingStage_quiet {place : Place} {pipeline : Pipeline} {number : Nat}
    {input : Value} (nothing : pipeline.launch? number input = none) :
    State.Quiet world stack (launchingStage world stack place pipeline number input) := by
  have used : pipeline.stage? number = none := by
    simpa [Pipeline.launch?] using nothing
  simp only [launchingStage, used]
  exact replying_quiet (.refl world)

theorem takingAwaited_quiet {deferred : Nat} {proceed : World → Value → State}
    (quiet : ∀ later value, world.Quiet later → State.Quiet world stack (proceed later value)) :
    State.Quiet world stack (takingAwaited world stack deferred proceed) := by
  have taken : world.Quiet (world.retrieve deferred).1 := .retrieve deferred
  simp only [takingAwaited]
  split
  · exact quiet _ _ taken
  · exact replying_quiet taken

theorem steppingPipeline_quiet {place : Place} {pipeline : Pipeline} {position : Position}
    (nothing : position = .notStarted → pipeline.seed.bind (pipeline.launch? 0) = none) :
    State.Quiet world stack (steppingPipeline world stack place pipeline position) := by
  have touched (body : Body) : world.Quiet (world.modifyBody place fun _ => body) :=
    .modifyBody place _
  cases position with
  | notStarted =>
      simp only [steppingPipeline]
      split
      · exact replying_quiet (.refl world)
      · next seed unused =>
          have nothing := nothing rfl
          rw [unused] at nothing
          split
          · exact replying_quiet (touched _)
          · refine Quiet.beyond (touched (.pipeline { pipeline with seed := none })) ?_
            exact launchingStage_quiet nothing
  | suspension number =>
      simp only [steppingPipeline]
      split
      · exact replying_quiet (.refl world)
      · refine Quiet.beyond (touched _) (takingAwaited_quiet fun later value changed => ?_)
        exact ⟨changed, ⟨[.inspected place number value], rfl, rfl⟩, rfl⟩
  | finished => exact replying_quiet (.refl world)

theorem announcing_quiet {place : Place} {demo : CubeRoot} {announcement : Announcement}
    (quiet : world.Quiet later) :
    State.Quiet world stack (announcing later stack place demo announcement) :=
  ⟨quiet, ⟨[.announced place announcement], rfl, rfl⟩, rfl⟩

theorem steppingCubeRoot_quiet {place : Place} {demo : CubeRoot} {position : Position} :
    State.Quiet world stack (steppingCubeRoot world stack place demo position) := by
  have touched (body : Body) : world.Quiet (world.modifyBody place fun _ => body) :=
    .modifyBody place _
  unfold steppingCubeRoot
  split
  · exact announcing_quiet (.refl world)
  · split
    · exact replying_quiet (.refl world)
    · refine Quiet.beyond (touched _) (takingAwaited_quiet fun later value changed => ?_)
      refine announcing_quiet ?_
      exact changed.trans (.modifyBody place _)
  · split
    · exact replying_quiet (.refl world)
    · refine Quiet.beyond (touched _) (takingAwaited_quiet fun later value changed => ?_)
      refine announcing_quiet ?_
      exact changed.trans (.modifyBody place _)
  · exact replying_quiet (.refl world)

/-- The step of a body that dispatches nothing is quiet. -/
theorem runningStep_quiet {place : Place} {position : Position}
    (nothing : dispatch? ⟨world, stack, .task (.step place position)⟩ = none) :
    State.Quiet world stack (runningStep world stack place position) := by
  unfold runningStep
  split
  · exact replying_quiet (.refl world)
  · exact ⟨.refl world, ⟨[], rfl, rfl⟩, rfl⟩
  · next pipeline body =>
      refine steppingPipeline_quiet ?_
      rintro rfl
      simpa [dispatch?, body] using nothing
  · exact steppingCubeRoot_quiet

/-- What follows within a step and dispatches nothing is quiet. -/
theorem returning_within_quiet {place : Place} {frame : Frame} {reply : Reply}
    (within : frame.place? = some place)
    (nothing : dispatch? ⟨world, frame :: stack, .reply reply⟩ = none) :
    State.Quiet world stack (returning world stack reply frame) := by
  cases frame with
  | inspected place number value =>
      simp only [returning, inspectedValue]
      split
      · next pipeline body =>
          split
          · next following found =>
              refine launchingStage_quiet ?_
              simpa [dispatch?, body, found] using nothing
          · exact replying_quiet (.refl world)
      · exact replying_quiet (.refl world)
  | announced place announcement =>
      simp only [returning, announcedProgress]
      split
      · next demo body =>
          cases announcement with
          | started | cube _ => simp [dispatch?, body, CubeRoot.launch?] at nothing
          | root _ => exact announcing_quiet (.refl world)
          | finished => exact replying_quiet (.refl world)
      · exact replying_quiet (.refl world)
  | launched place number deferred => exact replying_quiet (.modifyBody place _)
  | _ => cases within

/-! ## Borders -/

/-- Once the border is crossed, the reply goes on quietly. -/
theorem returning_border_quiet {frame : Frame} {reply : Reply} (border : frame.isBorder = true) :
    State.Quiet (world.left frame) stack (returning world stack reply frame) := by
  cases frame with
  | blocking machine pool deferred => exact waiting_quiet (.refl _)
  | context _ _ | thread _ | worker _ _ _ => exact replying_quiet (.refl _)
  | _ => cases border

/-- Once the border is broken, the panic goes on quietly, or has ended its thread. -/
theorem unwindingThrough_border_quiet {frame : Frame} {payload : Payload}
    (border : frame.isBorder = true) :
    State.Quiet (world.broken frame) stack (unwindingThrough world stack payload frame) := by
  cases frame with
  | blocking machine pool deferred =>
      exact ⟨.refl _, ⟨[.unwinding [.activation machine] payload], rfl, rfl⟩, rfl⟩
  | context _ _ => exact ⟨.refl _, ⟨[], rfl, rfl⟩, rfl⟩
  | thread _ | worker _ _ _ => exact replying_quiet (.refl _)
  | _ => cases border

/-! ## All small steps -/

/-- A task is quiet, or stirs. -/
theorem carryingOut_cases {task : Task}
    (nothing : dispatch? ⟨world, stack, .task task⟩ = none) :
    State.Quiet world stack (carryingOut world stack task) ∨
      Stirs ⟨world, stack, .task task⟩ (carryingOut world stack task) := by
  cases task with
  | run continuation => exact .inl runningContinuation_quiet
  | resume machine => exact .inl resuming_quiet
  | advance machine => exact .inl advancing_quiet
  | step place position => exact .inl (runningStep_quiet nothing)
  | finish machine outcome => exact .inl finishing_quiet
  | publish deferred outcome =>
      simp only [carryingOut, publishing]
      split
      · exact .inl (replying_quiet (.refl world))
      · next found lookup => exact .inr (.published lookup)
  | schedule scheduler continuation =>
      by_cases accepts : ∃ pool, scheduler = .pool pool ∧ world.acceptsJobs pool = true
      · obtain ⟨pool, rfl, accepts⟩ := accepts
        right
        have queued := @Stirs.queued ⟨world, stack, .task (.schedule (.pool pool) continuation)⟩
          world pool continuation [] .done rfl (.refl world) accepts (.inr rfl) rfl fun _ => rfl
        simp only [carryingOut, scheduling, accepts, if_true]
        exact queued
      · refine .inl (scheduling_quiet ?_)
        intro pool same
        exact Bool.eq_false_iff.mpr fun accepted => accepts ⟨pool, same, accepted⟩
  | discard owned =>
      by_cases dropsRuntime : ∃ pool, owned = .runtime pool
      · obtain ⟨pool, rfl⟩ := dropsRuntime
        simp only [carryingOut, discarding, shuttingDown]
        split
        · exact .inl (replying_quiet (.refl world))
        · next found lookup =>
            split
            · exact .inl ⟨.refl world, ⟨[], rfl, rfl⟩, rfl⟩
            · next idle =>
                refine .inr (.closed lookup (Bool.eq_false_iff.mpr idle) ?_)
                split
                · exact .refl _
                · exact recorded_quiet (.refl _)
      · exact .inl (discarding_quiet fun pool same => dropsRuntime ⟨pool, same⟩)

/-- A small step crosses no border and is quiet, or it stirs. -/
theorem next_cases (tidy : state.Tidy) :
    (state.crosses = false ∧ State.Quiet state.world state.base state.next) ∨
      Stirs state state.next := by
  cases asks : state.dispatch? with
  | some launched =>
      obtain ⟨launcher, dispatching⟩ := dispatching_of_dispatch? asks
      exact dispatching.next_cases.imp_left fun quiet => ⟨dispatching.crosses, quiet⟩
  | none =>
      obtain ⟨world, stack, control⟩ := state
      cases control with
      | halted reason => exact .inl ⟨rfl, .refl world, ⟨[], rfl, rfl⟩, rfl⟩
      | program program =>
          cases program with
          | ret reply => exact .inl ⟨rfl, .refl world, ⟨[], rfl, rfl⟩, rfl⟩
          | panic payload => exact .inl ⟨rfl, .refl world, ⟨[], rfl, rfl⟩, rfl⟩
          | call request rest => exact requesting_cases.imp_left fun quiet => ⟨rfl, quiet⟩
      | task task => exact (carryingOut_cases asks).imp_left fun quiet => ⟨rfl, quiet⟩
      | reply reply =>
          cases stack with
          | nil => exact .inl ⟨rfl, .refl world, ⟨[], rfl, rfl⟩, rfl⟩
          | cons frame rest =>
              cases border : frame.isBorder with
              | true => exact .inr (.crossed border (returning_border_quiet border))
              | false =>
                  cases within : frame.place? with
                  | some place =>
                      exact .inl ⟨border, returning_within_quiet within asks⟩
                  | none =>
                      rcases tidy with all | ⟨owned, below, placed, replies, -⟩
                      · have single : frame.isTidy = true :=
                          List.all_eq_true.mp all _ (List.mem_cons_self ..)
                        refine .inl ⟨border, returning_quiet ?_ ?_ ?_⟩
                        · simp [Frame.isQuiet, single, border]
                        · rintro place number value rfl
                          cases within
                        · rintro place announcement rfl
                          cases within
                      · cases placed
                        cases replies
                        cases owned with
                        | runtime pool => exact .inr .shed
                        | _ => exact .inl ⟨rfl, .refl world, ⟨[.disposing []], rfl, rfl⟩, rfl⟩
      | unwind payload =>
          cases stack with
          | nil => exact .inl ⟨rfl, .refl world, ⟨[], rfl, rfl⟩, rfl⟩
          | cons frame rest =>
              cases border : frame.isBorder with
              | true => exact .inr (.broke border (unwindingThrough_border_quiet border))
              | false =>
                  rcases tidy with all | ⟨_, _, _, replies, -⟩
                  · have single : frame.isTidy = true :=
                      List.all_eq_true.mp all _ (List.mem_cons_self ..)
                    refine .inl ⟨border, unwindingThrough_quiet ?_⟩
                    simp [Frame.isQuiet, single, border]
                  · cases replies

end State

end Stepwise
