import Stepwise.Proofs.Effects.Steps

/-!
# Where continuations are run

The library runs a continuation, sends one to a scheduler or resumes a machine in few places.
A small step that does so next is one of these, and has put on the stack what that place waits
with.  No small step changes the scheduler of a machine, and none gives an event loop one more
owner.
-/

namespace Stepwise

/-- Whether a task passes control on: to a continuation, a scheduler or a machine. -/
def Task.passesOn : Task → Bool
  | .run _ => true
  | .schedule _ _ => true
  | .resume _ => true
  | _ => false

/-- Whether control is passed on next. -/
def Control.passesOn : Control → Bool
  | .task next => next.passesOn
  | _ => false

namespace Frame

/-- The loop that a frame is in the middle of driving. -/
def drives? : Frame → Option Nat
  | .turning _ loop => some loop
  | .looping _ loop _ => some loop
  | .pumping drive => some drive.loop
  | .deciding drive _ => some drive.loop
  | _ => none

/-- The machine that a frame is in the middle of starting. -/
def starts? : Frame → Option Nat
  | .starting _ machine => some machine
  | .blocking machine _ _ => some machine
  | _ => none

end Frame

/-! ## Owners of loops -/

/-- The loop that something owned is. -/
def Owned.loop? : Owned → Option Nat
  | .loop number => some number
  | _ => none

/-- The loops that a frame owns: it is in the middle of driving one, or of dropping some. -/
def Frame.loops : Frame → List Nat
  | .disposing rest => rest.filterMap Owned.loop?
  | .unwinding rest _ => rest.filterMap Owned.loop?
  | frame => frame.drives?.toList

@[simp] theorem Owned.loops_continuations (continuations : List Continuation) :
    (continuations.map Owned.continuation).filterMap Owned.loop? = [] := by
  induction continuations with
  | nil => rfl
  | cons _ _ ih => exact ih

/-- The loops that frames own. -/
def Stack.loops : Stack → List Nat
  | [] => []
  | frame :: rest => frame.loops ++ Stack.loops rest

theorem Stack.loops_driving {frame : Frame} {stack : Stack} {loop : Nat}
    (drives : frame.drives? = some loop) :
    Stack.loops (frame :: stack) = loop :: stack.loops := by
  cases frame <;> cases drives <;> rfl

/-- The loop that is about to be dropped. -/
def Control.loops : Control → List Nat
  | .task (.discard owned) => owned.loop?.toList
  | _ => []

/-- How often a loop is owned under a name; one that is not made yet is its maker's. -/
def World.owners (world : World) (loop : Nat) : Nat :=
  world.ownedLoops.total (fun other => [other].count loop) +
    if loop < world.loops.size then 0 else 1

/-- How often a loop is owned. -/
def State.owners (state : State) (loop : Nat) : Nat :=
  state.world.owners loop + (state.control.loops ++ state.stack.loops).count loop

/-! ## What small steps retain -/

/-- Every machine is still there, with the scheduler that it had. -/
def World.Schedules (world later : World) : Prop :=
  ∀ machine found, world.activations.get? machine = some found →
    ∃ changed, later.activations.get? machine = some changed ∧
      changed.scheduler = found.scheduler

/-- Every machine keeps its scheduler, and every loop is owned under names as often as before. -/
def World.Conserves (world later : World) : Prop :=
  world.Schedules later ∧ ∀ loop, later.owners loop = world.owners loop

/-- Control is passed on only where it may be, every machine keeps its scheduler, and no loop is
owned more often than it was under names and by some frames. -/
structure State.Retains (may : Stack → Task → Prop) (world : World) (base : Stack)
    (after : State) : Prop where
  passes : ∀ task, after.control = .task task → task.passesOn = true → may after.stack task
  schedules : world.Schedules after.world
  owners : ∀ loop, after.owners loop ≤ world.owners loop + base.loops.count loop

variable {may : Stack → Task → Prop} {world later : World} {stack base : Stack} {after : State}
  {continuation : Continuation} {machine deferred : Nat} {place : Place} {reply : Reply}
  {payload : Payload} {frame : Frame}

theorem World.Schedules.trans {last : World} (first : world.Schedules later)
    (second : later.Schedules last) : world.Schedules last := by
  intro machine found lookup
  obtain ⟨changed, still, same⟩ := first machine found lookup
  obtain ⟨final, present, again⟩ := second machine changed still
  exact ⟨final, present, again.trans same⟩

namespace World.Conserves

theorem same (activations : later.activations = world.activations)
    (owners : ∀ loop, later.owners loop = world.owners loop) : world.Conserves later :=
  ⟨fun _ found lookup => ⟨found, activations ▸ lookup, rfl⟩, owners⟩

theorem trans {last : World} (first : world.Conserves later) (second : later.Conserves last) :
    world.Conserves last :=
  ⟨first.1.trans second.1, fun loop => (second.2 loop).trans (first.2 loop)⟩

theorem modifyActivation {change : Activation → Activation}
    (kept : ∀ found, (change found).scheduler = found.scheduler) :
    world.Conserves (world.modifyActivation machine change) := by
  refine ⟨fun other found lookup => ?_, fun _ => rfl⟩
  by_cases here : machine = other
  · subst here
    exact ⟨change found, by simp [World.modifyActivation, lookup], kept found⟩
  · exact ⟨found, by simp [World.modifyActivation, here, lookup], rfl⟩

theorem modifyBody (change : Body → Body) :
    world.Conserves (world.modifyBody place change) := by
  cases place with
  | started machine => exact modifyActivation fun _ => rfl
  | kept number => exact same rfl fun _ => rfl

theorem newActivation (body : Body) (scheduler : Scheduler) (observer : Observer) :
    world.Conserves (world.newActivation body scheduler observer).1 := by
  refine ⟨fun machine found lookup => ?_, fun _ => rfl⟩
  have older : machine ≠ world.activations.size := by
    rintro rfl
    simp [Store.get?, Store.size] at lookup
  exact ⟨found, by simp [World.newActivation, World.record, older, lookup], rfl⟩

theorem retrieve (deferred : Nat) : world.Conserves (world.retrieve deferred).1 := by
  unfold World.retrieve
  split <;> exact same rfl fun _ => rfl

/-- A loop changes; there are as many as before. -/
theorem modifyLoop (loop : Nat) (change : EventLoop → EventLoop) :
    world.Conserves (world.modifyLoop loop change) :=
  same rfl fun _ => by simp [World.owners, World.modifyLoop]

end World.Conserves

namespace State

namespace Retains

/-- The world is conserved, and the frames own what those of the base do. -/
theorem of_conserves (conserves : world.Conserves after.world)
    (hands : after.control.loops ++ after.stack.loops = base.loops)
    (passes : ∀ task, after.control = .task task → task.passesOn = true →
      may after.stack task) : Retains may world base after where
  passes := passes
  schedules := conserves.1
  owners := fun loop => Nat.le_of_eq (by rw [State.owners, hands, conserves.2])

/-- Control is passed on where it may be. -/
theorem passing {task : Task} (conserves : world.Conserves after.world)
    (hands : after.control.loops ++ after.stack.loops = base.loops)
    (comes : after.control = .task task) (allowed : may after.stack task) :
    Retains may world base after :=
  .of_conserves conserves hands fun other again _ => by
    cases comes.symm.trans again
    exact allowed

/-- Control is not passed on. -/
theorem quiet (conserves : world.Conserves after.world)
    (hands : after.control.loops ++ after.stack.loops = base.loops)
    (stays : after.control.passesOn = false) : Retains may world base after :=
  .of_conserves conserves hands fun task comes passes => by
    rw [comes] at stays
    cases stays.symm.trans passes

/-- Control is not passed on, and no machine is touched. -/
theorem plain (activations : after.world.activations = world.activations)
    (owners : ∀ loop, after.world.owners loop = world.owners loop)
    (hands : after.control.loops ++ after.stack.loops = base.loops)
    (stays : after.control.passesOn = false) : Retains may world base after :=
  .quiet (.same activations owners) hands stays

theorem beyond (retains : Retains may later base after) (conserves : world.Conserves later) :
    Retains may world base after where
  passes := retains.passes
  schedules := conserves.1.trans retains.schedules
  owners := fun loop => conserves.2 loop ▸ retains.owners loop

/-- Frames that own the same loops are as good. -/
theorem of_loops {other : Stack} (retains : Retains may world other after)
    (same : other.loops = base.loops) : Retains may world base after where
  passes := retains.passes
  schedules := retains.schedules
  owners := fun loop => same ▸ retains.owners loop

/-- What a frame owns besides may be lost. -/
theorem beneath (retains : Retains may world stack after) :
    Retains may world (frame :: stack) after where
  passes := retains.passes
  schedules := retains.schedules
  owners := fun loop => by
    have bound := retains.owners loop
    simp only [Stack.loops, List.count_append]
    omega

end Retains

/-! ## Tasks -/

theorem replying_retains : Retains may world stack (.replying world stack reply) :=
  .plain rfl (fun _ => rfl) rfl rfl

theorem refusing_retains {refusal : Refusal} :
    Retains may world stack (.refusing world stack refusal) :=
  .plain rfl (fun _ => rfl) rfl rfl

theorem performing_retains {task : Task}
    (hands : (Control.task task).loops ++ stack.loops = base.loops)
    (passes : task.passesOn = true → may (.answering reply :: stack) task) :
    Retains may world base (.performing world stack task reply) :=
  .of_conserves (.same rfl fun _ => rfl) hands (by
    rintro _ ⟨⟩
    exact passes)

theorem disposing_retains {displaced : List Owned}
    (hands : displaced.filterMap Owned.loop? ++ stack.loops = base.loops) :
    Retains may world base (.disposing world stack displaced reply) := by
  cases displaced <;> exact .plain rfl (fun _ => rfl) hands rfl

theorem dropping_retains {owned : List Owned}
    (hands : owned.filterMap Owned.loop? ++ stack.loops = base.loops) :
    Retains may world base (.dropping world stack owned payload) := by
  cases owned <;> exact .plain rfl (fun _ => rfl) hands rfl

theorem violating_retains {error : Error} :
    Retains may world stack (violating world stack machine error) :=
  (dropping_retains rfl).beyond (.same rfl fun _ => rfl)

/-- What is registered on a complete deferred is run. -/
theorem registering_retains
    (runs : world.isComplete deferred = true → may stack (.run continuation)) :
    Retains may world stack (registering world stack deferred continuation) := by
  unfold registering
  split
  · next complete =>
      exact .passing (.same rfl fun _ => rfl) rfl rfl (runs complete)
  · exact .plain rfl (fun _ => rfl) rfl rfl

theorem publishing_retains {outcome : Outcome} :
    Retains may world stack (publishing world stack deferred outcome) := by
  unfold publishing
  split <;> exact .plain rfl (fun _ => rfl) rfl rfl

theorem awakening_retains : Retains may world stack (awakening world stack deferred) := by
  unfold awakening
  split
  · exact replying_retains
  · split <;> exact .plain rfl (fun _ => rfl) rfl rfl

theorem advancing_retains : Retains may world stack (advancing world stack machine) := by
  unfold advancing
  split
  · exact replying_retains
  · split <;> exact .plain rfl (fun _ => rfl) rfl rfl

theorem resuming_retains : Retains may world stack (resuming world stack machine) := by
  have claims : world.Conserves (world.modifyActivation machine fun activation =>
      { activation with status := .running, pending := none }) :=
    .modifyActivation fun _ => rfl
  unfold resuming
  split
  · exact replying_retains
  · split
    · exact .plain rfl (fun _ => rfl) rfl rfl
    · exact violating_retains
    · split
      · exact .quiet claims rfl rfl
      · dsimp only
        split
        · exact .quiet claims rfl rfl
        · exact violating_retains.beyond claims

theorem finishing_retains {outcome : Outcome} :
    Retains may world stack (finishing world stack machine outcome) := by
  have finishes : world.Conserves (world.modifyActivation machine (·.finish)) :=
    .modifyActivation fun _ => rfl
  unfold finishing
  split
  · exact replying_retains
  · dsimp only
    split <;> refine .quiet ?_ rfl rfl <;> cases outcome <;> exact finishes

theorem abandoning_retains : Retains may world stack (abandoning world stack machine) := by
  unfold abandoning
  split
  · exact replying_retains
  · split
    · exact .quiet (.modifyActivation fun _ => rfl) rfl rfl
    · exact .plain rfl (fun _ => rfl) rfl rfl

/-- A scheduler runs a continuation at once when it is inline, and when its pool is gone. -/
theorem scheduling_retains {scheduler : Scheduler}
    (runs : (scheduler = .inline ∨
      ∃ pool, scheduler = .pool pool ∧ world.acceptsJobs pool = false) →
        may stack (.run continuation)) :
    Retains may world stack (scheduling world stack scheduler continuation) := by
  cases scheduler with
  | inline =>
      exact .passing (.same rfl fun _ => rfl) rfl rfl (runs (.inl rfl))
  | pool pool =>
      simp only [scheduling]
      split
      · exact .plain rfl (fun _ => rfl) rfl rfl
      · next refused =>
          exact .passing (.same rfl fun _ => rfl) rfl rfl (runs (.inr ⟨pool, rfl, by simpa using refused⟩))
  | loop loop =>
      simp only [scheduling]
      split
      · exact .quiet (.modifyLoop _ _) rfl rfl
      · exact .plain rfl (fun _ => rfl) rfl rfl
  | queue queue =>
      simp only [scheduling]
      split
      · exact .plain rfl (fun _ => rfl) rfl rfl
      · exact .plain rfl (fun _ => rfl) rfl rfl
  | discard => exact .plain rfl (fun _ => rfl) rfl rfl

/-- What hands a machine over is sent to its scheduler, and a resumption resumes. -/
theorem runningContinuation_retains
    (hands : ∀ scheduler machine, continuation = .handOver scheduler machine →
      may stack (.schedule scheduler (.resumption machine)))
    (resumes : ∀ machine, continuation = .resumption machine → may stack (.resume machine)) :
    Retains may world stack (runningContinuation world stack continuation) := by
  cases continuation with
  | callback _ | job _ _ | signal _ => exact .plain rfl (fun _ => rfl) rfl rfl
  | handOver scheduler machine =>
      exact .passing (.same rfl fun _ => rfl) rfl rfl (hands scheduler machine rfl)
  | resumption machine =>
      exact .passing (.same rfl fun _ => rfl) rfl rfl (resumes machine rfl)

theorem releasingShare_retains : Retains may world stack (releasingShare world stack machine) := by
  have released : world.Conserves (world.modifyActivation machine fun activation =>
      { activation with owners := activation.owners - 1 }) :=
    .modifyActivation fun _ => rfl
  have emptied := released.trans (.modifyActivation fun _ => rfl :
    World.Conserves _ ((world.modifyActivation machine fun activation =>
      { activation with owners := activation.owners - 1 }).modifyActivation machine
        fun activation => { activation with observer := none }))
  unfold releasingShare
  split
  · exact replying_retains
  · dsimp only
    split
    · split
      · exact .quiet emptied rfl rfl
      · exact .quiet emptied rfl rfl
    · exact .quiet released rfl rfl

theorem shuttingDown_retains {pool : Nat} :
    Retains may world stack (shuttingDown world stack pool) := by
  unfold shuttingDown
  split
  · exact replying_retains
  · split
    · exact .plain rfl (fun _ => rfl) rfl rfl
    · have hands (jobs : List Continuation) :
          (jobs.map Owned.continuation).filterMap Owned.loop? ++ stack.loops = stack.loops := by
        rw [Owned.loops_continuations, List.nil_append]
      dsimp only
      split <;> exact .plain rfl (fun _ => rfl) (hands _) rfl

theorem discarding_retains {owned : Owned} :
    Retains may world stack (discarding world stack owned) := by
  cases owned with
  | continuation continuation =>
      cases continuation with
      | callback _ | signal _ => exact .plain rfl (fun _ => rfl) rfl rfl
      | handOver _ _ | resumption _ => exact abandoning_retains
      | job _ _ => exact .plain rfl (fun _ => rfl) rfl rfl
  | writer _ => exact .plain rfl (fun _ => rfl) rfl rfl
  | activation machine => exact releasingShare_retains
  | loop _ => exact .plain rfl (fun _ => rfl) rfl rfl
  | runtime pool => exact shuttingDown_retains

/-! ## Steps of machines -/

theorem dispatching_retains {target : Target} {infallible : Bool} {work : Program}
    {waiting : Nat → Stack} (hands : ∀ deferred, (waiting deferred).loops = stack.loops) :
    Retains may world stack (dispatching world stack target infallible work waiting) := by
  have queueing (pool : Nat) : Retains may world stack
      (if world.acceptsJobs pool then
        .replying (world.newDeferred.1.modifyPool pool
          (·.push (.job world.newDeferred.2 work))) (waiting world.newDeferred.2) .done
      else
        ⟨world.newDeferred.1, .recording .dispatchedAfterShutdown ::
            waiting world.newDeferred.2,
          .task (.discard (.continuation (.job world.newDeferred.2 work)))⟩) := by
    split
    · exact .plain rfl (fun _ => rfl) (hands _) rfl
    · exact .plain rfl (fun _ => rfl) (hands _) rfl
  cases target with
  | immediate => exact .plain rfl (fun _ => rfl) (hands _) rfl
  | pool pool => exact queueing pool
  | context =>
      simp only [dispatching]
      split
      · exact queueing _
      · exact .plain rfl (fun _ => rfl) rfl rfl

theorem unknownStep_retains {position : Position} :
    Retains may world stack (unknownStep world stack position) :=
  replying_retains

theorem takingAwaited_retains {proceed : World → Value → State}
    (proceeds : ∀ later value, Retains may later stack (proceed later value)) :
    Retains may world stack (takingAwaited world stack deferred proceed) := by
  unfold takingAwaited
  dsimp only
  split
  · exact (proceeds _ _).beyond (.retrieve deferred)
  · exact replying_retains.beyond (.retrieve deferred)

theorem launchingStage_retains {pipeline : Pipeline} {number : Nat} {input : Value} :
    Retains may world stack (launchingStage world stack place pipeline number input) := by
  unfold launchingStage
  split
  · exact unknownStep_retains
  · exact Retains.beyond (dispatching_retains fun _ => rfl) (.modifyBody _)

theorem steppingPipeline_retains {pipeline : Pipeline} {position : Position} :
    Retains may world stack (steppingPipeline world stack place pipeline position) := by
  cases position with
  | notStarted =>
      simp only [steppingPipeline]
      split
      · exact unknownStep_retains
      · split
        · exact replying_retains.beyond (.modifyBody _)
        · exact launchingStage_retains.beyond (.modifyBody _)
  | suspension number =>
      simp only [steppingPipeline]
      split
      · exact unknownStep_retains
      · refine Retains.beyond (takingAwaited_retains fun later value => ?_) (.modifyBody _)
        exact .plain rfl (fun _ => rfl) rfl rfl
  | finished => exact unknownStep_retains

theorem announcing_retains {demo : CubeRoot} {announcement : Announcement} :
    Retains may world stack (announcing world stack place demo announcement) :=
  .plain rfl (fun _ => rfl) rfl rfl

theorem steppingCubeRoot_retains {demo : CubeRoot} {position : Position} :
    Retains may world stack (steppingCubeRoot world stack place demo position) := by
  unfold steppingCubeRoot
  split
  · exact announcing_retains
  · split
    · exact unknownStep_retains
    · refine Retains.beyond (takingAwaited_retains fun later value => ?_) (.modifyBody _)
      exact announcing_retains.beyond (.modifyBody _)
  · split
    · exact unknownStep_retains
    · refine Retains.beyond (takingAwaited_retains fun later value => ?_) (.modifyBody _)
      exact announcing_retains.beyond (.modifyBody _)
  · exact unknownStep_retains

theorem runningStep_retains {position : Position} :
    Retains may world stack (runningStep world stack place position) := by
  unfold runningStep
  split
  · exact unknownStep_retains
  · exact .plain rfl (fun _ => rfl) rfl rfl
  · exact steppingPipeline_retains
  · exact steppingCubeRoot_retains

theorem launchingWork_retains {demo : CubeRoot} {number : Nat} {work : Program} :
    Retains may world stack (launchingWork world stack place demo number work) := by
  unfold launchingWork
  exact Retains.beyond (dispatching_retains fun _ => rfl) (.modifyBody _)

theorem inspectedValue_retains {number : Nat} {value : Value} :
    Retains may world stack (inspectedValue world stack place number value) := by
  unfold inspectedValue
  split
  · split
    · exact launchingStage_retains
    · exact replying_retains
  · exact replying_retains

theorem announcedProgress_retains {announcement : Announcement} :
    Retains may world stack (announcedProgress world stack place announcement) := by
  unfold announcedProgress
  split
  · cases announcement with
    | started | cube _ => exact launchingWork_retains
    | root _ => exact announcing_retains
    | finished => exact replying_retains
  · exact replying_retains

/-! ## Replies and panics -/

/-- To give a loop back to its name takes it out of a frame's hands. -/
theorem owners_restoreLoop (world : World) (name : Name) (given loop : Nat) :
    (world.restoreLoop name given).1.owners loop +
        ((world.restoreLoop name given).2.filterMap Owned.loop?).count loop =
      world.owners loop + [given].count loop := by
  have named := Table.total_insert world.ownedLoops name given fun other => [other].count loop
  have displaced : ((world.restoreLoop name given).2.filterMap Owned.loop?).count loop =
      ((world.ownedLoops.find? name).map fun other => [other].count loop).getD 0 := by
    unfold World.restoreLoop
    cases world.ownedLoops.find? name with
    | none => rfl
    | some other => rfl
  have inserted : (world.restoreLoop name given).1.owners loop =
      (world.ownedLoops.insert name given).total (fun other => [other].count loop) +
        if loop < world.loops.size then 0 else 1 := rfl
  rw [displaced, inserted, World.owners]
  omega

/-- A drive that ends gives its loop back. -/
theorem Retains.of_restored {name : Name} {given : Nat} (drives : frame.drives? = some given)
    (restored : after.world = (world.restoreLoop name given).1)
    (hands : after.control.loops ++ after.stack.loops =
      (world.restoreLoop name given).2.filterMap Owned.loop? ++ stack.loops)
    (stays : after.control.passesOn = false) :
    Retains may world (frame :: stack) after where
  passes := fun task comes passes => by
    rw [comes] at stays
    cases stays.symm.trans passes
  schedules := fun _ found lookup => ⟨found, by rw [restored]; exact lookup, rfl⟩
  owners := fun loop => by
    have given := owners_restoreLoop world name given loop
    rw [State.owners, hands, restored, Stack.loops_driving drives]
    simp only [List.count_append, List.count_cons, List.count_nil] at given ⊢
    omega

theorem parking_retains {name : Name} {loop : Nat} (drives : frame.drives? = some loop) :
    Retains may world (frame :: stack) (parking world stack name loop reply) := by
  unfold parking
  dsimp only
  cases displaced : (world.restoreLoop name loop).2 with
  | nil => exact .of_restored drives rfl (by rw [displaced]; rfl) rfl
  | cons first rest => exact .of_restored drives rfl (by rw [displaced]; rfl) rfl

theorem parkingUnwound_retains {name : Name} {loop : Nat} (drives : frame.drives? = some loop) :
    Retains may world (frame :: stack) (parkingUnwound world stack name loop payload) := by
  unfold parkingUnwound
  dsimp only
  cases displaced : (world.restoreLoop name loop).2 with
  | nil => exact .of_restored drives rfl (by rw [displaced]; rfl) rfl
  | cons first rest => exact .of_restored drives rfl (by rw [displaced]; rfl) rfl

theorem deciding_retains {drive : Drive} {last : Bool}
    (drives : frame.drives? = some drive.loop) :
    Retains may world (frame :: stack) (deciding world stack drive last) :=
  .plain rfl (fun _ => rfl) (Stack.loops_driving drives).symm rfl

/-- A drive that runs what is queued first keeps its loop. -/
theorem Retains.of_popped {loop : Nat} {change : EventLoop → EventLoop} {driver : Frame}
    (drives : frame.drives? = some loop) (same : driver.drives? = some loop)
    (runs : may (driver :: stack) (.run continuation)) :
    Retains may world (frame :: stack)
      ⟨world.modifyLoop loop change, driver :: stack, .task (.run continuation)⟩ := by
  refine .of_conserves (.modifyLoop loop change) ?_ ?_
  · exact (Stack.loops_driving same).trans (Stack.loops_driving drives).symm
  · rintro _ ⟨⟩ -
    exact runs

/-- A turn of a drive runs what is queued first. -/
theorem decided_retains {drive : Drive} {last holds : Bool}
    (drives : frame.drives? = some drive.loop)
    (runs : ∀ continuation left driver, world.loopQueue drive.loop = continuation :: left →
      driver.drives? = some drive.loop → may (driver :: stack) (.run continuation)) :
    Retains may world (frame :: stack) (decided world stack drive last holds) := by
  unfold decided pumping
  split
  · exact parking_retains drives
  · split
    · exact deciding_retains drives
    · split
      · exact deciding_retains drives
      · next queued => exact .of_popped drives rfl (runs _ _ _ queued rfl)

theorem turning_retains {name : Name} {loop : Nat} (drives : frame.drives? = some loop)
    (runs : ∀ continuation left driver, world.loopQueue loop = continuation :: left →
      driver.drives? = some loop → may (driver :: stack) (.run continuation)) :
    Retains may world (frame :: stack) (turning world stack name loop) := by
  unfold turning
  split
  · exact parking_retains drives
  · next queued => exact .of_popped drives rfl (runs _ _ _ queued rfl)

theorem runningNext_retains {name : Name} {loop ran : Nat} (drives : frame.drives? = some loop)
    (runs : ∀ continuation left driver, world.loopQueue loop = continuation :: left →
      driver.drives? = some loop → may (driver :: stack) (.run continuation)) :
    Retains may world (frame :: stack) (runningNext world stack name loop ran) := by
  unfold runningNext
  split
  · exact parking_retains drives
  · next queued => exact .of_popped drives rfl (runs _ _ _ queued rfl)

/-- A step that awaits something pending leaves its machine suspended. -/
theorem stepped_retains {result : StepResult} :
    Retains may world stack (stepped world stack machine result) := by
  cases result with
  | complete value => exact .plain rfl (fun _ => rfl) rfl rfl
  | fail error =>
      simp only [stepped]
      split
      · exact violating_retains
      · exact .plain rfl (fun _ => rfl) rfl rfl
  | await resumeAt deferred =>
      have moves : world.Conserves (world.modifyActivation machine fun activation =>
          { activation with position := .suspension resumeAt }) :=
        .modifyActivation fun _ => rfl
      simp only [stepped]
      split
      · exact .quiet moves rfl rfl
      · next pending =>
          refine Retains.beyond (registering_retains fun complete => ?_)
            (moves.trans (.modifyActivation fun _ => rfl))
          exact absurd complete pending

theorem stepPanicked_retains : Retains may world stack (stepPanicked world stack machine payload) :=
  .plain rfl (fun _ => rfl) rfl rfl

theorem worked_retains {result : Except Failure Value} :
    Retains may world stack (worked world stack deferred result) :=
  .plain rfl (fun _ => rfl) rfl rfl

theorem started_retains {handle : Name} :
    Retains may world stack (started world stack handle machine) := by
  unfold started
  refine (disposing_retains ?_).beyond (.same rfl fun _ => rfl)
  cases world.handles.find? handle <;> rfl

theorem waiting_retains {run : Option (Nat × Nat)}
    (runs : world.isComplete deferred = true →
      may (.answering (.reference world.waiters.size) :: stack)
        (.run (.signal world.waiters.size))) :
    Retains may world stack (waiting world stack deferred run) := by
  have registered : Retains may
      { world with waiters := world.waiters.push ⟨deferred, .waiting, run⟩ }
      (.answering (.reference world.waiters.size) :: stack) (waiting world stack deferred run) :=
    registering_retains runs
  have settled : Retains may _ stack (waiting world stack deferred run) :=
    registered.of_loops rfl
  exact settled.beyond (.same rfl fun _ => rfl)

theorem closingNext_retains {loop discarded : Nat} :
    Retains may world stack (closingNext world stack loop discarded) := by
  unfold closingNext
  split
  · dsimp only
    split <;> exact .quiet (.modifyLoop loop _) rfl rfl
  · exact .quiet (.modifyLoop loop _) rfl rfl

/-! ## Requests -/

theorem withNamed_retains {α : Type} {table : Table α} {name : Name} {use : α → State}
    (retains : ∀ value, table.find? name = some value → Retains may world stack (use value)) :
    Retains may world stack (withNamed world stack table name use) := by
  unfold withNamed
  split
  · exact refusing_retains
  · next value found => exact retains value found

theorem withReceipt_retains {name : Name} {use : Receipt → State}
    (retains : ∀ receipt, world.receipts.find? name = some receipt →
      Retains may world stack (use receipt)) :
    Retains may world stack (withReceipt world stack name use) := by
  unfold withReceipt
  split
  · exact refusing_retains
  · next receipt found => exact retains receipt found

theorem withAwaiter_retains {name : Name} {use : Nat → State}
    (retains : ∀ deferred, world.awaiter? name = some deferred →
      Retains may world stack (use deferred)) :
    Retains may world stack (withAwaiter world stack name use) := by
  cases awaited : world.awaiter? name with
  | none =>
      obtain ⟨refusal, refused⟩ := withAwaiter_of_none awaited
      rw [refused]
      exact refusing_retains
  | some deferred =>
      rw [World.withAwaiter_of_awaiter awaited]
      exact retains deferred awaited

/-- A loop that is about to be driven is taken from its name. -/
theorem driving_retains {name : Name} {drive : World → Nat → State}
    (retains : ∀ loop,
      Retains may { world with ownedLoops := world.ownedLoops.erase name }
        (.turning name loop :: stack)
        (drive { world with ownedLoops := world.ownedLoops.erase name } loop)) :
    Retains may world stack (driving world stack name drive) := by
  refine withNamed_retains fun given named => ?_
  refine ⟨(retains given).passes, (retains given).schedules, fun loop => ?_⟩
  have bound := (retains given).owners loop
  have taken := Table.total_erase world.ownedLoops name fun other => [other].count loop
  rw [Stack.loops_driving rfl] at bound
  simp only [named, Option.map_some, Option.getD_some] at taken
  simp only [World.owners, List.count_cons, List.count_nil] at bound taken ⊢
  omega

theorem polling_retains {waker : Waker} :
    Retains may world stack (polling world stack deferred waker) := by
  unfold polling
  split
  · exact replying_retains
  · split
    · exact .plain rfl (fun _ => rfl) rfl rfl
    · exact .plain rfl (fun _ => rfl) rfl rfl
    · split
      · exact replying_retains.beyond (.retrieve deferred)
      · exact .plain rfl (fun _ => rfl) rfl rfl

theorem collecting_retains {waiter : Nat} :
    Retains may world stack (collecting world stack waiter) := by
  unfold collecting
  split
  · exact replying_retains
  · next found _ =>
    dsimp only
    split
    · exact replying_retains
    · refine Retains.beyond (disposing_retains ?_) (.same rfl fun _ => rfl)
      cases found.run <;> rfl
    · refine Retains.beyond ((disposing_retains ?_).beyond (.retrieve _))
        (.same rfl fun _ => rfl)
      cases found.run <;> rfl

/-- A small step comes to a task that passes control on, above what waits for it. -/
inductive Begets (state : State) : Stack → Task → Prop where
  /-- What is registered on a complete deferred runs at once. -/
  | registered {deferred : Nat} {continuation : Continuation} {callers : Stack} :
      state.effect = .registers deferred continuation →
        state.world.isComplete deferred = true → Begets state callers (.run continuation)
  /-- A deferred that has been completed fires what was registered on it. -/
  | fired {deferred : Nat} {continuation : Continuation} {rest : List Continuation}
      {below : Stack} {reply : Reply} :
      state.stack = .firing deferred (continuation :: rest) :: below →
        state.control = .reply reply →
          Begets state (.firing deferred rest :: below) (.run continuation)
  /-- A scheduler runs what it is sent at once. -/
  | scheduled {scheduler : Scheduler} {continuation : Continuation} :
      state.control = .task (.schedule scheduler continuation) →
        (scheduler = .inline ∨
          ∃ pool, scheduler = .pool pool ∧ state.world.acceptsJobs pool = false) →
          Begets state state.stack (.run continuation)
  /-- A worker takes the oldest job of its pool. -/
  | worked {name : Name} {rest : Reply → Program} {pool number : Nat} {found : Pool}
      {job : Continuation} {jobs : List Continuation} :
      state.control = .program (.call (.work name) rest) →
        state.world.pools.get? pool = some found → found.jobs = job :: jobs →
          Begets state (.worker pool number state.world.thread :: .program rest :: state.stack)
            (.run job)
  /-- A custom scheduler runs what it was handed. -/
  | unqueued {name : Name} {index queue : Nat} {rest : Reply → Program}
      {continuation : Continuation} :
      state.control = .program (.call (.runQueued name index) rest) →
        state.world.queueNames.find? name = some queue →
          ((state.world.queues.get? queue).getD [])[index]? = some (some continuation) →
            Begets state (.answering .done :: .program rest :: state.stack) (.run continuation)
  /-- A loop that is driven runs what is queued first. -/
  | driven {loop : Nat} {continuation : Continuation} {left : List Continuation} {frame : Frame}
      {callers : Stack} :
      state.world.loopQueue loop = continuation :: left → frame.drives? = some loop →
        Begets state (frame :: callers) (.run continuation)
  /-- What a machine has registered hands it to its scheduler. -/
  | handedOver {scheduler : Scheduler} {machine : Nat} :
      state.control = .task (.run (.handOver scheduler machine)) →
        Begets state state.stack (.schedule scheduler (.resumption machine))
  /-- User code sends a callback to a scheduler. -/
  | asked {scheduler : Scheduler} {body : Program} {rest : Reply → Program} :
      state.control = .program (.call (.schedule scheduler body) rest) →
        Begets state (.answering .done :: .program rest :: state.stack)
          (.schedule scheduler (.callback body))
  /-- A resumption runs. -/
  | resumed {machine : Nat} :
      state.control = .task (.run (.resumption machine)) →
        Begets state state.stack (.resume machine)
  /-- A machine is started. -/
  | started {frame : Frame} {callers : Stack} {form : Machine} {observer : Observer} :
      .started state.world.activations.size form observer ∈ state.occurrences →
        frame.starts? = some state.world.activations.size →
          Begets state (frame :: callers) (.resume state.world.activations.size)

theorem starting_retains {form : Machine} {scheduler : Scheduler} {observer : Observer}
    {waiting : Nat → Frame} (hands : (waiting world.activations.size).loops = [])
    (starts : may (waiting world.activations.size :: stack) (.resume world.activations.size)) :
    Retains may world stack (starting world stack form scheduler observer waiting) := by
  refine .of_conserves (.newActivation _ _ _) ?_ ?_
  · simp [starting, Control.loops, Stack.loops, World.newActivation, hands]
  · rintro _ ⟨⟩ -
    exact starts

/-- A loop that is made has its first owner. -/
theorem makingLoop_retains {name : Name} :
    Retains may world stack (makingLoop world stack name) := by
  let made : World := { world with
    loops := world.loops.push .fresh
    loopSchedulers := world.loopSchedulers.insert name world.loops.size }
  have vacant (loop : Nat) :
      made.owners loop + [world.loops.size].count loop = world.owners loop := by
    simp only [made, World.owners, Store.size_push, List.count_cons, List.count_nil]
    by_cases new : world.loops.size = loop
    · simp [new]
    · have still : loop < world.loops.size + 1 ↔ loop < world.loops.size := by omega
      simp [new, still]
  have parked : Retains may made (.turning name world.loops.size :: stack)
      (makingLoop world stack name) :=
    parking_retains rfl
  refine ⟨parked.passes, parked.schedules, fun loop => ?_⟩
  have bound := parked.owners loop
  have share := vacant loop
  rw [Stack.loops_driving rfl] at bound
  simp only [List.count_cons, List.count_nil] at bound share
  omega

/-- A request passes control on only where it says so. -/
theorem requesting_retains {request : Request} {rest : Reply → Program} :
    Retains (Begets ⟨world, stack, .program (.call request rest)⟩) world
      (.program rest :: stack)
      (requesting world (.program rest :: stack) request) := by
  cases request with
  | pending receipt raw writer =>
      refine Retains.beyond (disposing_retains ?_) (.same rfl fun _ => rfl)
      cases world.writers.find? writer <;> rfl
  | ready receipt raw outcome => exact .plain rfl (fun _ => rfl) rfl rfl
  | complete writer outcome =>
      exact withNamed_retains fun _ _ =>
        Retains.beyond (performing_retains rfl (by rintro ⟨⟩)) (.same rfl fun _ => rfl)
  | dropWriter writer =>
      exact withNamed_retains fun _ _ =>
        Retains.beyond (performing_retains rfl (by rintro ⟨⟩)) (.same rfl fun _ => rfl)
  | toAwaiter receipt =>
      refine withReceipt_retains fun _ _ => ?_
      split
      · exact .plain rfl (fun _ => rfl) rfl rfl
      · exact refusing_retains
  | readiness receipt => exact withReceipt_retains fun _ _ => replying_retains
  | isComplete deferred => exact replying_retains
  | onComplete receipt body =>
      refine withReceipt_retains fun found kept => ?_
      refine Retains.of_loops (registering_retains fun complete => ?_) rfl
      exact .registered (by simp [effect, World.effect, kept]) complete
  | retrieve receipt =>
      simp only [requesting]
      exact withAwaiter_retains fun deferred _ => replying_retains.beyond (.retrieve deferred)
  | dropReceipt receipt => exact withReceipt_retains fun _ _ => .plain rfl (fun _ => rfl) rfl rfl
  | suspend receipt resumeAt => exact withAwaiter_retains fun _ _ => replying_retains
  | dispatch receipt raw infallible target work =>
      simp only [requesting]
      exact dispatching_retains fun _ => rfl
  | newWaker waker body => exact .plain rfl (fun _ => rfl) rfl rfl
  | poll receipt waker =>
      exact withNamed_retains fun _ _ => withAwaiter_retains fun _ _ => polling_retains
  | wait receipt =>
      simp only [requesting]
      refine withAwaiter_retains fun deferred may => ?_
      refine Retains.beyond (waiting_retains fun complete => ?_) (.same rfl fun _ => rfl)
      exact .registered (by simp [effect, World.effect, may]) complete
  | collect waiter => exact collecting_retains
  | schedule scheduler body => exact performing_retains rfl fun _ => .asked rfl
  | newLoop loop => exact makingLoop_retains
  | findLoop loop => exact withNamed_retains fun _ _ => replying_retains
  | turnLoop loop =>
      simp only [requesting]
      refine driving_retains fun _ => turning_retains rfl fun _ _ _ queued drives => ?_
      exact .driven queued drives
  | runLoop loop =>
      simp only [requesting]
      refine driving_retains fun _ => runningNext_retains rfl fun _ _ _ queued drives => ?_
      exact .driven queued drives
  | runLoopUntil loop deadline clock condition =>
      simp only [requesting]
      exact driving_retains fun _ => deciding_retains rfl
  | dropLoop loop =>
      simp only [requesting]
      exact driving_retains fun _ => performing_retains rfl (by rintro ⟨⟩)
  | newQueue queue => exact .plain rfl (fun _ => rfl) rfl rfl
  | findQueue queue => exact withNamed_retains fun _ _ => replying_retains
  | queueLength queue => exact withNamed_retains fun _ _ => replying_retains
  | runQueued queue index =>
      refine withNamed_retains fun number named => ?_
      split
      · next there =>
          exact Retains.beyond (performing_retains rfl fun _ => .unqueued rfl named there)
            (.same rfl fun _ => rfl)
      · exact refusing_retains
  | dropQueued queue index =>
      refine withNamed_retains fun number named => ?_
      split
      · exact Retains.beyond (performing_retains rfl (by rintro ⟨⟩)) (.same rfl fun _ => rfl)
      · exact refusing_retains
  | newRuntime runtime workers threadName =>
      simp only [requesting, makingRuntime]
      split
      · exact .plain rfl (fun _ => rfl) rfl rfl
      · refine Retains.beyond (disposing_retains ?_) (.same rfl fun _ => rfl)
        cases world.runtimes.find? runtime <;> rfl
  | dropRuntime runtime =>
      refine withNamed_retains fun _ _ => ?_
      split
      · exact refusing_retains
      · exact Retains.beyond (performing_retains rfl (by rintro ⟨⟩)) (.same rfl fun _ => rfl)
  | findPool runtime => exact withNamed_retains fun _ _ => replying_retains
  | isShutdown runtime => exact withNamed_retains fun _ _ => replying_retains
  | enter runtime body => exact withNamed_retains fun _ _ => .plain rfl (fun _ => rfl) rfl rfl
  | run threadName runtime machine =>
      refine withNamed_retains fun pool named => ?_
      unfold runningMachine
      have begins : .started world.activations.size machine (.writer world.deferreds.size) ∈
          State.occurrences
            ⟨world, stack, .program (.call (.run threadName runtime machine) rest)⟩ := by
        simp [occurrences, World.requested, named]
      exact Retains.beyond ((starting_retains rfl (.started begins rfl)).of_loops rfl)
        (.same rfl fun _ => rfl)
  | runtimes => exact replying_retains
  | queuedJobs runtime => exact withNamed_retains fun _ _ => replying_retains
  | work runtime =>
      refine withNamed_retains fun pool _ => ?_
      simp only [working]
      split
      · exact replying_retains
      · next found there =>
          split
          · next job rest number jobs _ =>
              exact .passing (.same rfl fun _ => rfl) rfl rfl (.worked rfl there jobs)
          · exact replying_retains
  | start handle machine scheduler observer =>
      exact starting_retains rfl (.started (List.mem_singleton_self _) rfl)
  | startAwaitable handle machine scheduler receipt early =>
      simp only [requesting, startingAwaitable]
      split
      all_goals
        refine Retains.beyond (Retains.of_loops (starting_retains rfl ?_) rfl)
          (.same rfl fun _ => rfl)
        exact .started (List.mem_singleton_self _) rfl
  | cancel handle =>
      refine withNamed_retains fun machine _ => ?_
      exact .quiet ((World.Conserves.same rfl fun _ => rfl).trans
        (.modifyActivation fun _ => rfl)) rfl rfl
  | handle handle => exact withNamed_retains fun _ _ => replying_retains
  | isFinished machine => exact replying_retains
  | dropHandle handle =>
      exact withNamed_retains fun _ _ =>
        Retains.beyond (performing_retains rfl (by rintro ⟨⟩)) (.same rfl fun _ => rfl)
  | newMachine name machine => exact .plain rfl (fun _ => rfl) rfl rfl
  | stepMachine machine position =>
      exact withNamed_retains fun _ _ => .plain rfl (fun _ => rfl) rfl rfl
  | dropMachine machine => exact withNamed_retains fun _ _ => .plain rfl (fun _ => rfl) rfl rfl
  | newRegion => exact .plain rfl (fun _ => rfl) rfl rfl
  | load cell => exact withNamed_retains fun _ _ => replying_retains
  | store cell content => exact .plain rfl (fun _ => rfl) rfl rfl
  | note entry => exact .plain rfl (fun _ => rfl) rfl rfl
  | record record => exact .plain rfl (fun _ => rfl) rfl rfl
  | threadName => exact replying_retains
  | thread name body => exact .plain rfl (fun _ => rfl) rfl rfl
  | attempt body => exact .plain rfl (fun _ => rfl) rfl rfl

/-! ## Every small step -/

theorem returning_retains {frame : Frame} :
    Retains (Begets ⟨world, frame :: stack, .reply reply⟩) world (frame :: stack)
      (returning world stack reply frame) := by
  cases frame with
  | program next => exact .plain rfl (fun _ => rfl) rfl rfl
  | answering settled => exact replying_retains.beneath
  | recording record => exact .plain rfl (fun _ => rfl) rfl rfl
  | placing receipt raw deferred => exact .plain rfl (fun _ => rfl) rfl rfl
  | firing deferred rest =>
      cases rest with
      | nil => exact awakening_retains.beneath
      | cons first rest =>
          exact .passing (.same rfl fun _ => rfl) rfl rfl (.fired rfl rfl)
  | waking deferred poisons => exact .plain rfl (fun _ => rfl) rfl rfl
  | working deferred => exact worked_retains.beneath
  | stepping machine => exact stepped_retains.beneath
  | releasing machine => exact .plain rfl (fun _ => rfl) rfl rfl
  | inspected place number value => exact inspectedValue_retains.beneath
  | announced place announcement => exact announcedProgress_retains.beneath
  | launched place number deferred =>
      exact .quiet (.modifyBody _) rfl rfl
  | starting handle machine => exact started_retains.beneath
  | blocking machine pool deferred =>
      refine Retains.beneath (Retains.beyond (waiting_retains fun complete => ?_)
        (.same rfl fun _ => rfl))
      exact .registered rfl complete
  | disposing rest =>
      cases rest with
      | nil => exact replying_retains.beneath
      | cons first rest =>
          refine .plain rfl (fun _ => rfl) ?_ rfl
          cases first <;> rfl
  | unwinding rest payload =>
      cases rest with
      | nil => exact .plain rfl (fun _ => rfl) rfl rfl
      | cons first rest =>
          refine .plain rfl (fun _ => rfl) ?_ rfl
          cases first <;> rfl
  | context saved pool => exact .plain rfl (fun _ => rfl) rfl rfl
  | thread saved => exact .plain rfl (fun _ => rfl) rfl rfl
  | attempting => exact replying_retains.beneath
  | worker pool number saved => exact .plain rfl (fun _ => rfl) rfl rfl
  | turning name loop => exact parking_retains rfl
  | looping name loop ran =>
      exact runningNext_retains rfl fun _ _ _ queued drives => .driven queued drives
  | deciding drive last =>
      exact decided_retains rfl fun _ _ _ queued drives => .driven queued drives
  | pumping drive => exact deciding_retains rfl
  | closing loop discarded => exact closingNext_retains.beneath

theorem unwindingThrough_retains :
    Retains may world (frame :: stack) (unwindingThrough world stack payload frame) := by
  cases frame with
  | firing _ rest =>
      refine dropping_retains ?_
      rw [Owned.loops_continuations]
      rfl
  | disposing rest => exact dropping_retains rfl
  | releasing _ | starting _ _ =>
      simp only [unwindingThrough]
      exact dropping_retains rfl
  | working deferred =>
      simp only [unwindingThrough]
      exact worked_retains.beneath
  | stepping machine => exact stepPanicked_retains.beneath
  | blocking machine pool _ =>
      simp only [unwindingThrough]
      exact Retains.beyond (dropping_retains rfl) (.same rfl fun _ => rfl)
  | turning _ _ | looping _ _ _ | deciding _ _ | pumping _ => exact parkingUnwound_retains rfl
  | closing loop _ =>
      refine Retains.beyond (dropping_retains ?_) (.modifyLoop loop _)
      rw [Owned.loops_continuations]
      rfl
  | unwinding rest _ => exact Retains.beneath (.plain rfl (fun _ => rfl) rfl rfl)
  | _ => exact .plain rfl (fun _ => rfl) rfl rfl

/-- Every machine keeps its scheduler, and control is passed on only in those few places. -/
theorem next_retains (state : State) : Retains state.Begets state.world state.stack state.next := by
  obtain ⟨world, stack, control⟩ := state
  cases control with
  | program program =>
      cases program with
      | ret _ | panic _ => exact .plain rfl (fun _ => rfl) rfl rfl
      | call request rest => exact requesting_retains.of_loops rfl
  | task task =>
      cases task with
      | run continuation =>
          refine runningContinuation_retains (fun scheduler machine same => ?_)
            fun machine same => ?_
          · subst same
            exact .handedOver rfl
          · subst same
            exact .resumed rfl
      | discard owned => exact discarding_retains
      | publish deferred outcome => exact publishing_retains
      | schedule scheduler continuation =>
          exact scheduling_retains fun runs => .scheduled rfl runs
      | resume machine => exact resuming_retains
      | advance machine => exact advancing_retains
      | step place position => exact runningStep_retains
      | finish machine outcome => exact finishing_retains
  | reply reply =>
      cases stack with
      | nil => exact .plain rfl (fun _ => rfl) rfl rfl
      | cons frame stack => exact returning_retains
  | unwind payload =>
      cases stack with
      | nil => exact .plain rfl (fun _ => rfl) rfl rfl
      | cons frame stack => exact unwindingThrough_retains
  | halted reason => exact .plain rfl (fun _ => rfl) rfl rfl

/-- Whatever passes control on next is begotten so. -/
theorem begets {state : State} {task : Task} (comes : state.next.control = .task task)
    (passes : task.passesOn = true) :
    ∃ callers, state.next.stack = callers ∧ state.Begets callers task :=
  ⟨_, rfl, (next_retains state).passes task comes passes⟩

/-- Every machine keeps its scheduler. -/
theorem schedules_next (state : State) : state.world.Schedules state.next.world :=
  (next_retains state).schedules

/-- A loop never gets one more owner, and one that is dropped loses one. -/
theorem owners_next (state : State) (loop : Nat) :
    state.next.owners loop + state.control.loops.count loop ≤ state.owners loop := by
  have bound := (next_retains state).owners loop
  simp only [owners, List.count_append] at bound ⊢
  omega

end State

end Stepwise
