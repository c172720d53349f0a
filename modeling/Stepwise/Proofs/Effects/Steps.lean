import Stepwise.Proofs.Effects.Requests

/-!
# The effect of every small step

What a small step does to deferreds, to the batches on the stack, to those who may retrieve
a result, and which machine it goes on to drive, is said here once for all small steps.
-/

namespace Stepwise

namespace State

/-- The effect of a small step. -/
def effect (state : State) : Effect :=
  match state.control, state.stack with
  | .program (.call request _), _ => state.world.effect request
  | .task (.publish deferred outcome), _ => .publishes deferred outcome
  | .task (.run continuation), _ => continuation.settles .woken
  | .task (.discard owned), _ => owned.settles
  | .task (.step place position), _ =>
      match (state.world.body? place).bind (·.asks position) with
      | some deferred => .retrieves deferred
      | none => .nothing
  | .reply reply, .stepping machine :: _ =>
      match state.world.judge machine reply with
      | .await _ deferred =>
          if state.world.isComplete deferred then .nothing
          else .registers deferred (.handOver
            (((state.world.activations.get? machine).map (·.scheduler)).getD .inline) machine)
      | _ => .nothing
  | .reply _, .blocking _ _ deferred :: _ =>
      .registers deferred (.signal state.world.waiters.size)
  | _, _ => .nothing

/-- Where each effect comes from. -/
inductive Exerts (state : State) : Effect → Prop where
  | nothing : Exerts state .nothing
  | publishes {deferred : Nat} {outcome : Outcome} :
      state.control = .task (.publish deferred outcome) →
        Exerts state (.publishes deferred outcome)
  | listens {receipt : Name} {body : Program} {rest : Reply → Program} {found : Receipt} :
      state.control = .program (.call (.onComplete receipt body) rest) →
        state.world.receipts.find? receipt = some found →
          Exerts state (.registers found.deferred (.callback body))
  | waits {receipt : Name} {rest : Reply → Program} {deferred : Nat} :
      state.control = .program (.call (.wait receipt) rest) →
        state.world.awaiter? receipt = some deferred →
          Exerts state (.registers deferred (.signal state.world.waiters.size))
  | suspends {machine resumeAt deferred : Nat} {callers : Stack} (scheduler : Scheduler) :
      state.Ends machine (.returned (.await resumeAt deferred)) callers →
        state.world.isComplete deferred = false →
          Exerts state (.registers deferred (.handOver scheduler machine))
  | blocks {machine pool deferred : Nat} {callers : Stack} {reply : Reply} :
      state.stack = .blocking machine pool deferred :: callers → state.control = .reply reply →
        Exerts state (.registers deferred (.signal state.world.waiters.size))
  | asks {request : Request} {rest : Reply → Program} {deferred : Nat} :
      state.control = .program (.call request rest) →
        state.world.asks request = some deferred → Exerts state (.retrieves deferred)
  | steps {place : Place} {position : Position} {body : Body} {deferred : Nat} :
      state.control = .task (.step place position) → state.world.body? place = some body →
        body.asks position = some deferred → Exerts state (.retrieves deferred)
  | wakes {waiter : Nat} :
      state.control = .task (.run (.signal waiter)) → Exerts state (.signals waiter .woken)
  | loses {waiter : Nat} :
      state.control = .task (.discard (.continuation (.signal waiter))) →
        Exerts state (.signals waiter .lost)

theorem exerts (state : State) : state.Exerts state.effect := by
  obtain ⟨world, stack, control⟩ := state
  simp only [effect]
  split
  · unfold World.effect
    split
    · split
      · next found kept => exact .listens rfl kept
      · exact .nothing
    · split
      · next deferred may => exact .waits rfl may
      · exact .nothing
    · split
      · next deferred asks => exact .asks rfl asks
      · exact .nothing
  · exact .publishes rfl
  · next continuation =>
      cases continuation with
      | signal waiter => exact .wakes rfl
      | _ => exact .nothing
  · next owned =>
      cases owned with
      | continuation dropped =>
          cases dropped with
          | signal waiter => exact .loses rfl
          | _ => exact .nothing
      | _ => exact .nothing
  · next place position =>
      cases there : world.body? place with
      | none => exact .nothing
      | some body =>
          cases asks : body.asks position with
          | none => simpa [asks] using .nothing
          | some deferred => simpa [asks] using .steps rfl there asks
  · next reply machine callers =>
      cases result : world.judge machine reply with
      | await resumeAt deferred =>
          cases complete : world.isComplete deferred with
          | true => simpa [complete] using .nothing
          | false => simpa [complete] using .suspends _ ⟨rfl, reply, rfl, result⟩ complete
      | complete _ | fail _ => exact .nothing
  · exact .blocks rfl rfl
  · exact .nothing

/-- The batch that a small step leaves to be fired. -/
def leaves? (state : State) : Option (Nat × List Continuation) :=
  match state.control, state.stack with
  | .task (.publish deferred _), _ =>
      (state.world.deferreds.get? deferred).map fun found => (deferred, found.continuations)
  | .reply _, .firing deferred (_ :: rest) :: _ => some (deferred, rest)
  | _, _ => none

/-- What a small step has the library do next with a machine. -/
inductive Urges (state : State) : Task → Prop where
  /-- The machine is resumed. -/
  | resumes {machine : Nat} :
      state.control = .task (.resume machine) → Urges state (.advance machine)
  /-- What the step of the machine awaits is complete. -/
  | goesOn {machine resumeAt deferred : Nat} {callers : Stack} :
      state.Ends machine (.returned (.await resumeAt deferred)) callers →
        state.world.isComplete deferred = true → Urges state (.advance machine)
  /-- The machine was cancelled before its step is called. -/
  | cancels {machine : Nat} {found : Activation} :
      state.control = .task (.advance machine) →
        state.world.activations.get? machine = some found → found.cancelled = true →
          Urges state (.finish machine (.error .cancelled))
  /-- The end of a step settles an outcome. -/
  | settles {machine : Nat} {ending : StepEnd} {callers : Stack} {outcome : Outcome} :
      state.Ends machine ending callers →
        ending.outcome? (((state.world.activations.get? machine).map (·.position)).getD
          .notStarted) = some outcome → Urges state (.finish machine outcome)
  /-- The resumption of the machine is dropped. -/
  | abandons {machine : Nat} :
      state.Abandons machine → Urges state (.finish machine (.error .shutdown))

variable {may : Task → Prop} {world : World} {stack : Stack}

/-! ## Steps of machines -/

theorem launchingStage_affects {place : Place} {pipeline : Pipeline} {number : Nat}
    {input : Value} :
    Affects .nothing may world stack
      (launchingStage world stack place pipeline number input) := by
  unfold launchingStage
  split
  · exact replying_affects
  · next stage _ =>
      have affects := @dispatching_affects may
        (world.modifyBody place fun _ => .pipeline (pipeline.useStage number)) stack
        (pipeline.dispatcher.target pipeline.dispatched) false (stage input)
        (fun deferred => .launched place number deferred :: stack) rfl fun deferred => by
          simp [Frame.reads]
      exact affects.beyond (by simp) (by simp) (by simp)

/-- A step that takes what it awaited does no more to deferreds, whatever it goes on with. -/
theorem takingAwaited_affects {deferred : Nat} {proceed : World → Value → State}
    (plain : ∀ value, ∃ later new control,
      proceed (world.retrieve deferred).1 value = ⟨later, new ++ stack, control⟩ ∧
        later.deferreds = (world.retrieve deferred).1.deferreds ∧
        later.receipts = world.receipts ∧ later.waiters = world.waiters ∧
        new.all Frame.isInert = true ∧ control.isIdle = true) :
    Affects (.retrieves deferred) may world stack
      (takingAwaited world stack deferred proceed) := by
  simp only [takingAwaited]
  split
  · next value _ =>
      obtain ⟨later, new, control, goesOn, deferreds, receipts, waiters, inert, idle⟩ :=
        plain value
      rw [goesOn]
      refine .inert ?_ ?_ ?_ ⟨new, rfl, inert⟩ idle
      · simp only [deferreds]
        exact .retrieved deferred
      · rw [waiters]
        exact .same fun _ _ => rfl
      · exact fun _ => Nat.le_of_eq (by rw [World.reads, World.reads, receipts, waiters])
  · exact @retrieving_affects may world stack deferred fun _ => .outcome (.error _)

theorem announcing_affects {place : Place} {demo : CubeRoot} {announcement : Announcement} :
    Affects .nothing may world stack (announcing world stack place demo announcement) :=
  .plain rfl rfl rfl ⟨[.announced place announcement], rfl, rfl⟩ rfl

theorem unknownStep_affects {position : Position} :
    Affects .nothing may world stack (unknownStep world stack position) :=
  replying_affects

theorem steppingPipeline_affects {place : Place} {pipeline : Pipeline} {position : Position} :
    Affects (match (Body.pipeline pipeline).asks position with
      | some deferred => .retrieves deferred
      | none => .nothing) may world stack
      (steppingPipeline world stack place pipeline position) := by
  cases position with
  | finished => exact unknownStep_affects
  | notStarted =>
      simp only [steppingPipeline, Body.asks]
      split
      · exact unknownStep_affects
      · split
        · exact replying_affects.beyond (by simp) (by simp) (by simp)
        · exact launchingStage_affects.beyond (by simp) (by simp) (by simp)
  | suspension number =>
      simp only [steppingPipeline, Body.asks]
      cases pipeline.awaited with
      | none => exact unknownStep_affects
      | some deferred =>
          refine Affects.beyond (takingAwaited_affects fun value => ?_) (by simp) (by simp)
            (by simp)
          exact ⟨_, [.inspected place number value], _, rfl, rfl, by simp, by simp, rfl, rfl⟩

theorem steppingCubeRoot_affects {place : Place} {demo : CubeRoot} {position : Position} :
    Affects (match (Body.cubeRoot demo).asks position with
      | some deferred => .retrieves deferred
      | none => .nothing) may world stack
      (steppingCubeRoot world stack place demo position) := by
  cases position with
  | finished => exact unknownStep_affects
  | notStarted => exact announcing_affects
  | suspension number =>
      rcases number with _ | _ | number
      · simp only [steppingCubeRoot, Body.asks]
        cases demo.awaitedCube with
        | none => exact unknownStep_affects
        | some deferred =>
            refine Affects.beyond (takingAwaited_affects fun value => ?_) (by simp) (by simp)
              (by simp)
            exact ⟨_, [.announced place _], _, rfl, by simp, by simp, by simp, rfl,
              rfl⟩
      · simp only [steppingCubeRoot, Body.asks]
        cases demo.awaitedRoot with
        | none => exact unknownStep_affects
        | some deferred =>
            refine Affects.beyond (takingAwaited_affects fun value => ?_) (by simp) (by simp)
              (by simp)
            exact ⟨_, [.announced place _], _, rfl, by simp, by simp, by simp, rfl,
              rfl⟩
      · exact unknownStep_affects

theorem runningStep_affects {place : Place} {position : Position} :
    Affects (match (world.body? place).bind (·.asks position) with
      | some deferred => .retrieves deferred
      | none => .nothing) may world stack (runningStep world stack place position) := by
  unfold runningStep
  cases world.body? place with
  | none => exact unknownStep_affects
  | some body =>
      cases body with
      | custom step => exact .plain rfl rfl rfl ⟨[], rfl, rfl⟩ rfl
      | pipeline pipeline => exact steppingPipeline_affects
      | cubeRoot demo => exact steppingCubeRoot_affects

theorem launchingWork_affects {place : Place} {demo : CubeRoot} {number : Nat}
    {work : Program} :
    Affects .nothing may world stack
      (launchingWork world stack place demo number work) := by
  have affects := @dispatching_affects may
    (world.modifyBody place fun _ => .cubeRoot { demo with dispatched := demo.dispatched + 1 })
    stack (demo.dispatcher.target demo.dispatched) false work
    (fun deferred => .launched place number deferred :: stack) rfl fun deferred => by
      simp [Frame.reads]
  exact affects.beyond (by simp) (by simp) (by simp)

theorem inspectedValue_affects {place : Place} {number : Nat} {value : Value} :
    Affects .nothing may world stack (inspectedValue world stack place number value) := by
  unfold inspectedValue
  split
  · split
    · exact launchingStage_affects
    · exact replying_affects
  · exact replying_affects

theorem announcedProgress_affects {place : Place} {announcement : Announcement} :
    Affects .nothing may world stack (announcedProgress world stack place announcement) := by
  unfold announcedProgress
  split
  · split
    · exact launchingWork_affects
    · exact launchingWork_affects
    · exact announcing_affects
    · exact replying_affects
  · exact replying_affects

/-! ## Frames -/

/-- A reply at a frame has the effect that can be read off it, unless the frame is a batch
or gives out a receipt. -/
theorem returning_affects {frame : Frame} {reply : Reply}
    (unbatched : ∀ deferred rest, frame ≠ .firing deferred rest)
    (placed : ∀ receipt raw deferred, frame ≠ .placing receipt raw deferred)
    (unblocked : ∀ machine pool deferred, frame ≠ .blocking machine pool deferred) :
    Affects (effect ⟨world, frame :: stack, .reply reply⟩)
      (Urges ⟨world, frame :: stack, .reply reply⟩) world stack
      (returning world stack reply frame) := by
  cases frame with
  | firing deferred rest => exact absurd rfl (unbatched deferred rest)
  | placing receipt raw deferred => exact absurd rfl (placed receipt raw deferred)
  | blocking machine pool deferred => exact absurd rfl (unblocked machine pool deferred)
  | stepping machine =>
      have ends : Ends ⟨world, .stepping machine :: stack, .reply reply⟩ machine
          (.returned (world.judge machine reply)) stack := ⟨rfl, reply, rfl, rfl⟩
      simp only [returning, effect]
      cases result : world.judge machine reply with
      | await resumeAt deferred =>
          rw [result] at ends
          cases complete : world.isComplete deferred with
          | true =>
              simp only [complete, if_true]
              exact awaited_affects (.goesOn ends complete) complete
          | false =>
              simp only [complete, Bool.false_eq_true, if_false]
              exact suspended_affects complete
      | complete _ | fail _ =>
          rw [result] at ends
          refine ended_affects (fun _ _ same => by cases same) ?_
          intro position outcome settled
          exact .settles ends settled
  | program next => exact .plain rfl rfl rfl ⟨[], rfl, rfl⟩ rfl
  | answering settled => exact replying_affects
  | recording record => exact .plain rfl rfl rfl ⟨[], rfl, rfl⟩ rfl
  | waking deferred poisons =>
      exact .inert (.retouched deferred (fun _ => rfl) fun _ => rfl) (.same fun _ _ => rfl)
        (fun _ => Nat.le_refl _) ⟨[], rfl, rfl⟩ rfl
  | working deferred => exact .plain rfl rfl rfl ⟨[], rfl, rfl⟩ rfl
  | releasing machine => exact .plain rfl rfl rfl ⟨[], rfl, rfl⟩ rfl
  | inspected place number value => exact inspectedValue_affects
  | announced place announcement => exact announcedProgress_affects
  | launched place number deferred =>
      exact .plain (World.deferreds_modifyBody ..) (World.receipts_modifyBody ..)
        (World.waiters_modifyBody ..) ⟨[], rfl, rfl⟩ rfl
  | starting handle machine => exact started_affects
  | disposing rest =>
      cases rest with
      | nil => exact .plain rfl rfl rfl ⟨[], rfl, rfl⟩ rfl
      | cons owned rest => exact .plain rfl rfl rfl ⟨[.disposing rest], rfl, rfl⟩ rfl
  | unwinding rest payload =>
      cases rest with
      | nil => exact .plain rfl rfl rfl ⟨[], rfl, rfl⟩ rfl
      | cons owned rest => exact .plain rfl rfl rfl ⟨[.unwinding rest payload], rfl, rfl⟩ rfl
  | context saved pool | thread saved | attempting | worker pool number saved =>
      exact .plain rfl rfl rfl ⟨[], rfl, rfl⟩ rfl
  | turning name loop => exact parking_affects
  | looping name loop ran => exact runningNext_affects
  | deciding drive last => exact decided_affects
  | pumping drive => exact deciding_affects
  | closing loop discarded => exact closingNext_affects

/-- A panic that passes a frame has no effect. -/
theorem unwindingThrough_affects {frame : Frame} {payload : Payload} :
    Affects .nothing (Urges ⟨world, frame :: stack, .unwind payload⟩) world stack
      (unwindingThrough world stack payload frame) := by
  cases frame with
  | stepping machine =>
      have ends : Ends ⟨world, .stepping machine :: stack, .unwind payload⟩ machine
          (.panicked payload) stack := ⟨rfl, rfl⟩
      exact stepPanicked_affects (.settles ends rfl)
  | waking deferred poisons =>
      exact .inert (.retouched deferred (fun _ => rfl) fun _ => rfl) (.same fun _ _ => rfl)
        (fun _ => Nat.le_refl _) ⟨[], rfl, rfl⟩ rfl
  | firing _ rest => exact dropping_affects
  | releasing machine | starting _ machine =>
      exact .plain rfl rfl rfl ⟨[.unwinding [.activation machine] payload], rfl, rfl⟩ rfl
  | blocking machine _ _ =>
      exact .plain rfl rfl rfl ⟨[.unwinding [.activation machine] payload], rfl, rfl⟩ rfl
  | disposing rest => exact dropping_affects
  | turning _ _ | looping _ _ _ | deciding _ _ | pumping _ => exact parkingUnwound_affects
  | closing loop _ => exact dropping_affects.beyond rfl rfl rfl
  | _ => exact .plain rfl rfl rfl ⟨[], rfl, rfl⟩ rfl

/-- A task has the effect that can be read off it, unless it publishes an outcome. -/
theorem carryingOut_affects {task : Task}
    (unpublished : ∀ deferred outcome, task ≠ .publish deferred outcome) :
    Affects (effect ⟨world, stack, .task task⟩) (Urges ⟨world, stack, .task task⟩) world stack
      (carryingOut world stack task) := by
  cases task with
  | publish deferred outcome => exact absurd rfl (unpublished deferred outcome)
  | run continuation => exact runningContinuation_affects
  | schedule scheduler continuation => exact scheduling_affects
  | resume machine => exact resuming_affects (.resumes rfl)
  | advance machine =>
      exact advancing_affects fun found lookup cancelled => .cancels rfl lookup cancelled
  | step place position => exact runningStep_affects
  | finish machine outcome => exact finishing_affects
  | discard owned =>
      refine discarding_affects ?_
      rintro continuation machine rfl carried
      exact .abandons ⟨continuation, rfl, carried⟩

/-! ## All small steps -/

/-- What a small step does to deferreds, batches and readers, and what it urges. -/
structure TakesEffect (state : State) : Prop where
  alters : state.effect.Alters state.world.deferreds state.next.world.deferreds
  rouses : state.effect.Rouses state.world.waiters state.next.world.waiters
  batches : state.next.stack.batches = state.leaves?.toList ++ state.base.batches
  reads : ∀ deferred, state.next.reads deferred ≤
    state.reads deferred + state.world.adds state.next.world deferred
  urges : ∀ task, state.next.control = .task task → task.drives = true → state.Urges task

/-- A small step that leaves no batch does what its effect says. -/
theorem Affects.takesEffect {state : State}
    (affects : Affects state.effect state.Urges state.world state.base state.next)
    (unbatched : state.leaves? = none) : state.TakesEffect where
  alters := affects.deferreds
  rouses := affects.rouses
  batches := by rw [affects.batches, unbatched, Option.toList_none, List.nil_append]
  reads := by
    intro deferred
    have bound := affects.reads deferred
    have fewer : state.base.reads deferred ≤ state.stack.reads deferred := by
      obtain ⟨popped, split, -⟩ := exists_above_base state
      rw [split, Stack.reads_append]
      omega
    simp only [State.reads] at bound ⊢
    omega
  urges := affects.drives

/-- The publication of an outcome leaves the continuations to be fired. -/
theorem takesEffect_publishing {deferred : Nat} {outcome : Outcome} :
    TakesEffect ⟨world, stack, .task (.publish deferred outcome)⟩ := by
  cases lookup : world.deferreds.get? deferred with
  | none =>
      have goesOn : next ⟨world, stack, .task (.publish deferred outcome)⟩ =
          .replying world stack .done := by
        simp [next, carryingOut, publishing, lookup]
      refine Affects.takesEffect ?_ (by simp [leaves?, lookup])
      rw [goesOn]
      refine .inert (.same fun other found present => ?_) (.same fun _ _ => rfl)
        (fun _ => Nat.le_refl _) ⟨[], rfl, rfl⟩ rfl
      have different : deferred ≠ other := by
        rintro rfl
        cases lookup.symm.trans present
      simp [effect, Effect.continuations, Effect.progress, different]
  | some found =>
      have goesOn : next ⟨world, stack, .task (.publish deferred outcome)⟩ =
          ⟨(world.modifyDeferred deferred (·.publish outcome)).record
              (.deferredCompleted found.continuations.length),
            .firing deferred found.continuations :: stack, .reply .done⟩ := by
        simp [next, carryingOut, publishing, lookup]
      constructor
      · rw [goesOn]
        exact .published outcome
      · rw [goesOn]
        exact .same fun _ _ => rfl
      · rw [goesOn]
        simp [leaves?, lookup, base, Stack.batches, Frame.batch?]
      · intro other
        rw [goesOn]
        exact Nat.le_add_right _ _
      · rw [goesOn]
        rintro task ⟨⟩

/-- The frame that gives out a receipt is one reader less, and the receipt one more. -/
theorem takesEffect_placing {receipt : Name} {raw : Bool} {deferred : Nat} {reply : Reply} :
    TakesEffect ⟨world, .placing receipt raw deferred :: stack, .reply reply⟩ where
  alters := .nothing _
  rouses := .same fun _ _ => rfl
  batches := rfl
  reads := by
    intro other
    have bound := @World.reads_putReceipt world other receipt deferred raw
    simp only [next, returning, replying, State.reads, Stack.reads_cons, Frame.reads,
      beq_iff_eq] at bound ⊢
    omega
  urges := by rintro task ⟨⟩

/-- The frame of a start that blocks its thread is one reader less, and the thread one
more. -/
theorem takesEffect_blocking {machine pool deferred : Nat} {reply : Reply} :
    TakesEffect ⟨world, .blocking machine pool deferred :: stack, .reply reply⟩ := by
  obtain ⟨alters, rouses, batches, reads, urges⟩ :=
    @waiting_affects (Urges ⟨world, .blocking machine pool deferred :: stack, .reply reply⟩)
      (world.leave pool none) stack deferred (some (pool, machine))
  refine ⟨alters, rouses.of_push, batches, ?_, urges⟩
  intro other
  have bound := reads other
  have left : (world.leave pool none).reads other = world.reads other := rfl
  have same (later : World) : ((world.leave pool none).block deferred
      (some (pool, machine))).adds later other = world.adds later other := rfl
  rw [World.reads_block, left, same] at bound
  simp only [next, returning, State.reads, Stack.reads_cons, Frame.reads, beq_iff_eq] at bound ⊢
  omega

/-- Every small step has the effect that can be read off it. -/
theorem takesEffect (state : State) : state.TakesEffect := by
  obtain ⟨world, stack, control⟩ := state
  cases control with
  | halted reason =>
      refine Affects.takesEffect ?_ rfl
      exact .plain rfl rfl rfl ⟨[], rfl, rfl⟩ rfl
  | program program =>
      refine Affects.takesEffect ?_ rfl
      cases program with
      | ret reply => exact .plain rfl rfl rfl ⟨[], rfl, rfl⟩ rfl
      | panic payload => exact .plain rfl rfl rfl ⟨[], rfl, rfl⟩ rfl
      | call request rest => exact Affects.above [.program rest] rfl requesting_affects
  | task task =>
      by_cases publishes : ∃ deferred outcome, task = .publish deferred outcome
      · obtain ⟨deferred, outcome, rfl⟩ := publishes
        exact takesEffect_publishing
      · simp only [not_exists] at publishes
        refine Affects.takesEffect (carryingOut_affects publishes) ?_
        cases task with
        | publish deferred outcome => exact absurd rfl (publishes deferred outcome)
        | _ => rfl
  | reply reply =>
      cases stack with
      | nil =>
          refine Affects.takesEffect ?_ rfl
          exact .plain rfl rfl rfl ⟨[], rfl, rfl⟩ rfl
      | cons frame rest =>
          cases frame with
          | placing receipt raw deferred => exact takesEffect_placing
          | blocking machine pool deferred => exact takesEffect_blocking
          | firing deferred batch =>
              cases batch with
              | nil => exact Affects.takesEffect awakening_affects rfl
              | cons first batch =>
                  refine ⟨.nothing _, .same fun _ _ => rfl, rfl,
                    fun _ => Nat.le_add_right _ _, ?_⟩
                  rintro task ⟨⟩ drives
                  cases drives
          | _ =>
              refine Affects.takesEffect (returning_affects ?_ ?_ ?_) rfl
              all_goals
                intro _ _
                intros
                simp
  | unwind payload =>
      cases stack with
      | nil =>
          refine Affects.takesEffect ?_ rfl
          exact .plain rfl rfl rfl ⟨[], rfl, rfl⟩ rfl
      | cons frame rest => exact Affects.takesEffect unwindingThrough_affects rfl

end State

end Stepwise
