import Stepwise.Proofs.Concerns.Basic

/-!
# What every small step ignores

Loops being driven, replies, panics and requests ignore every concern that they are not about,
and so does every small step.
-/

namespace Stepwise.State

variable {concern : Concern} {world : World} {stack : Stack} {deferred machine loop : Nat}
  {place : Place} {reply : Reply} {payload : Payload}

/-! ## Loops being driven -/

theorem parking_ignores {name : Name} :
    Ignores concern world stack (parking world stack name loop reply) :=
  disposing_ignores.beyond rfl

theorem parkingUnwound_ignores {name : Name} :
    Ignores concern world stack (parkingUnwound world stack name loop payload) :=
  dropping_ignores.beyond rfl

theorem deciding_ignores {drive : Drive} {last : Bool} (elsewhere : some .loops ≠ some concern) :
    Ignores concern world stack (deciding world stack drive last) :=
  .under elsewhere rfl

theorem pumping_ignores {drive : Drive} (elsewhere : some .loops ≠ some concern) :
    Ignores concern world stack (pumping world stack drive) := by
  unfold pumping
  split
  · exact deciding_ignores elsewhere
  · exact .under elsewhere (World.sight_modifyLoop elsewhere)

theorem decided_ignores {drive : Drive} {last holds : Bool}
    (elsewhere : some .loops ≠ some concern) :
    Ignores concern world stack (decided world stack drive last holds) := by
  unfold decided
  split
  · exact parking_ignores
  · split
    · exact deciding_ignores elsewhere
    · exact pumping_ignores elsewhere

theorem turning_ignores {name : Name} (elsewhere : some .loops ≠ some concern) :
    Ignores concern world stack (turning world stack name loop) := by
  unfold turning
  split
  · exact parking_ignores
  · exact .under elsewhere (World.sight_modifyLoop elsewhere)

theorem runningNext_ignores {name : Name} {ran : Nat} (elsewhere : some .loops ≠ some concern) :
    Ignores concern world stack (runningNext world stack name loop ran) := by
  unfold runningNext
  split
  · exact parking_ignores
  · exact .under elsewhere (World.sight_modifyLoop elsewhere)

theorem closingNext_ignores {discarded : Nat} (elsewhere : some .loops ≠ some concern) :
    Ignores concern world stack (closingNext world stack loop discarded) := by
  unfold closingNext
  split
  · simp only
    split
    · exact replying_ignores.beyond (World.sight_modifyLoop elsewhere)
    · exact replying_ignores.beyond (World.sight_record.trans (World.sight_modifyLoop elsewhere))
  · exact .under elsewhere (World.sight_modifyLoop elsewhere)

/-! ## Replies and panics -/

theorem stepped_ignores {result : StepResult} :
    Ignores concern world stack (stepped world stack machine result) := by
  unfold stepped
  split
  · exact .still rfl
  · split
    · exact violating_ignores
    · exact .still rfl
  · simp only
    split
    · exact .still rfl
    · exact registering_ignores.beyond rfl

theorem inspectedValue_ignores {number : Nat} {value : Value} :
    Ignores concern world stack (inspectedValue world stack place number value) := by
  unfold inspectedValue
  split
  · split
    · exact launchingStage_ignores
    · exact replying_ignores
  · exact replying_ignores

theorem announcedProgress_ignores {announcement : Announcement} :
    Ignores concern world stack (announcedProgress world stack place announcement) := by
  unfold announcedProgress
  split
  · split
    · exact launchingWork_ignores
    · exact launchingWork_ignores
    · exact announcing_ignores
    · exact replying_ignores
  · exact replying_ignores

theorem waiting_ignores {run : Option (Nat × Nat)} (elsewhere : some .receipts ≠ some concern) :
    Ignores concern world stack (waiting world stack deferred run) := by
  have registered : Ignores concern (world.block deferred run) stack
      (waiting world stack deferred run) :=
    registering_ignores.above [.answering (.reference world.waiters.size)] rfl
  exact registered.beyond (World.sight_block elsewhere)

theorem returning_ignores {frame : Frame} (elsewhere : frame.concernOfReply? ≠ some concern) :
    Ignores concern world stack (returning world stack reply frame) := by
  cases frame with
  | firing deferred rest =>
      cases rest with
      | nil => exact awakening_ignores elsewhere
      | cons first rest => exact .putting rfl rfl
  | waking _ _ => exact replying_ignores.beyond (World.sight_but_alarms elsewhere rfl rfl rfl)
  | placing _ _ _ => exact replying_ignores.beyond (World.sight_putReceipt _ _ elsewhere)
  | blocking _ _ _ => exact (waiting_ignores elsewhere).beyond rfl
  | stepping _ => exact stepped_ignores
  | inspected _ _ _ => exact inspectedValue_ignores
  | announced _ _ => exact announcedProgress_ignores
  | launched _ _ _ => exact replying_ignores.beyond World.sight_modifyBody
  | starting _ _ => exact disposing_ignores.beyond rfl
  | disposing rest =>
      cases rest with
      | nil => exact replying_ignores
      | cons first rest => exact .putting rfl rfl
  | unwinding rest payload =>
      cases rest with
      | nil => exact .still rfl
      | cons first rest => exact .putting rfl rfl
  | turning _ _ => exact parking_ignores
  | looping _ _ _ => exact runningNext_ignores elsewhere
  | deciding _ _ => exact decided_ignores elsewhere
  | pumping _ => exact deciding_ignores elsewhere
  | closing _ _ => exact closingNext_ignores elsewhere
  | _ => exact .still rfl

theorem unwindingThrough_ignores {frame : Frame} (elsewhere : frame.concern? ≠ some concern) :
    Ignores concern world stack (unwindingThrough world stack payload frame) := by
  cases frame with
  | waking _ _ => exact .still (World.sight_but_alarms elsewhere rfl rfl rfl)
  | firing _ _ | disposing _ => exact dropping_ignores
  | releasing _ | starting _ _ | blocking _ _ _ => exact .putting rfl rfl
  | turning _ _ | looping _ _ _ | deciding _ _ | pumping _ => exact parkingUnwound_ignores
  | closing _ _ => exact dropping_ignores.beyond (World.sight_modifyLoop elsewhere)
  | _ => exact .still rfl

/-! ## Requests -/

theorem withNamed_ignores {α : Type} {table : Table α} {name : Name} {use : α → State}
    (ignores : ∀ value, Ignores concern world stack (use value)) :
    Ignores concern world stack (withNamed world stack table name use) := by
  unfold withNamed
  split
  · exact refusing_ignores
  · exact ignores _

theorem withReceipt_ignores {name : Name} {use : Receipt → State}
    (ignores : ∀ receipt, Ignores concern world stack (use receipt)) :
    Ignores concern world stack (withReceipt world stack name use) := by
  unfold withReceipt
  split
  · exact refusing_ignores
  · exact ignores _

theorem withAwaiter_ignores {name : Name} {use : Nat → State}
    (ignores : ∀ deferred, Ignores concern world stack (use deferred)) :
    Ignores concern world stack (withAwaiter world stack name use) := by
  refine withReceipt_ignores fun receipt => ?_
  split
  · exact refusing_ignores
  · exact ignores _

theorem driving_ignores {name : Name} {drive : World → Nat → State}
    (ignores : ∀ later loop, Ignores concern later stack (drive later loop)) :
    Ignores concern world stack (driving world stack name drive) :=
  withNamed_ignores fun loop => (ignores _ loop).beyond rfl

theorem takingQueued_ignores {name : Name} {index : Nat} {use : Continuation → Task} :
    Ignores concern world stack (takingQueued world stack name index use) := by
  refine withNamed_ignores fun queue => ?_
  split
  · exact performing_ignores.beyond rfl
  · exact refusing_ignores

theorem polling_ignores {waker : Waker} (elsewhere : some .alarms ≠ some concern) :
    Ignores concern world stack (polling world stack deferred waker) := by
  unfold polling
  split
  · exact replying_ignores
  · split
    · exact .still rfl
    · exact .still rfl
    · split
      · exact replying_ignores.beyond World.sight_retrieve
      · exact replying_ignores.beyond (World.sight_but_alarms elsewhere rfl rfl rfl)

theorem collecting_ignores {waiter : Nat} (elsewhere : some .receipts ≠ some concern) :
    Ignores concern world stack (collecting world stack waiter) := by
  unfold collecting
  split
  · exact replying_ignores
  · simp only
    split
    · exact replying_ignores
    · exact disposing_ignores.beyond (World.sight_modifyWaiter elsewhere)
    · exact disposing_ignores.beyond
        (World.sight_retrieve.trans (World.sight_modifyWaiter elsewhere))

theorem working_ignores {pool : Nat} : Ignores concern world stack (working world stack pool) := by
  unfold working
  split
  · exact replying_ignores
  · split
    · exact .putting rfl rfl
    · exact replying_ignores

theorem starting_ignores {form : Machine} {scheduler : Scheduler} {observer : Observer}
    {waiting : Nat → Frame} (others : ∀ number, (waiting number).concern? ≠ some concern) :
    Ignores concern world stack (starting world stack form scheduler observer waiting) :=
  .under (others _) rfl

theorem requesting_ignores {request : Request} (elsewhere : request.concern? ≠ some concern) :
    Ignores concern world stack (requesting world stack request) := by
  cases request with
  | pending receipt raw writer =>
      exact disposing_ignores.beyond
        ((World.sight_putReceipt receipt raw elsewhere).trans World.sight_newDeferred)
  | ready receipt raw outcome =>
      exact ⟨World.sight_newDeferred,
        [.placing receipt raw world.deferreds.size, .answering .done], rfl, rfl⟩
  | complete _ _ | dropWriter _ | dropHandle _ =>
      exact withNamed_ignores fun _ => performing_ignores.beyond rfl
  | toAwaiter receipt =>
      refine withReceipt_ignores fun found => ?_
      split
      · exact replying_ignores.beyond (World.sight_putReceipt _ _ elsewhere)
      · exact refusing_ignores
  | readiness _ | dropReceipt _ => exact withReceipt_ignores fun _ => replying_ignores.beyond rfl
  | onComplete _ _ =>
      exact withReceipt_ignores fun _ => registering_ignores.above [.answering .done] rfl
  | retrieve _ =>
      simp only [requesting]
      exact withAwaiter_ignores fun _ => replying_ignores.beyond World.sight_retrieve
  | suspend _ _ => exact withAwaiter_ignores fun _ => replying_ignores
  | dispatch receipt raw infallible target work =>
      exact dispatching_ignores fun deferred =>
        ⟨[.placing receipt raw deferred, .answering .done], rfl, rfl⟩
  | newWaker _ _ | newRegion =>
      exact replying_ignores.beyond (World.sight_but_alarms elsewhere rfl rfl rfl)
  | poll _ _ =>
      exact withNamed_ignores fun _ => withAwaiter_ignores fun _ => polling_ignores elsewhere
  | wait _ =>
      simp only [requesting]
      exact withAwaiter_ignores fun _ => (waiting_ignores elsewhere).beyond rfl
  | collect _ => exact collecting_ignores elsewhere
  | schedule _ _ => exact performing_ignores
  | newLoop _ =>
      exact disposing_ignores.beyond (World.sight_but_loops elsewhere rfl rfl rfl rfl rfl)
  | turnLoop _ =>
      simp only [requesting]
      exact driving_ignores fun _ _ => turning_ignores elsewhere
  | runLoop _ =>
      simp only [requesting]
      exact driving_ignores fun _ _ => runningNext_ignores elsewhere
  | runLoopUntil _ _ _ _ =>
      simp only [requesting]
      exact driving_ignores fun _ _ => deciding_ignores elsewhere
  | dropLoop _ =>
      simp only [requesting]
      exact driving_ignores fun _ _ => performing_ignores
  | runQueued _ _ | dropQueued _ _ => exact takingQueued_ignores
  | newRuntime _ _ _ =>
      simp only [requesting, makingRuntime]
      split
      · exact .still rfl
      · exact disposing_ignores.beyond rfl
  | dropRuntime _ =>
      refine withNamed_ignores fun _ => ?_
      split
      · exact refusing_ignores
      · exact performing_ignores.beyond rfl
  | enter _ _ =>
      exact withNamed_ignores fun _ => .putting rfl rfl
  | run _ _ _ =>
      -- The frame that is put up above the thread blocks it, as the request is about to.
      refine withNamed_ignores fun pool => ?_
      have blocks (number deferred : Nat) :
          (Frame.blocking number pool deferred).concern? ≠ some concern := elsewhere
      exact ((starting_ignores fun number => blocks number _).above [.thread world.thread]
        rfl).beyond World.sight_newDeferred
  | work _ => exact withNamed_ignores fun _ => working_ignores
  | start _ _ _ _ => exact starting_ignores fun _ other => by cases other
  | startAwaitable handle form scheduler receipt early =>
      cases early with
      | true =>
          exact (starting_ignores fun _ other => by cases other).beyond
            ((World.sight_putReceipt receipt false elsewhere).trans World.sight_newDeferred)
      | false =>
          exact ((starting_ignores fun _ other => by cases other).above
            [.placing receipt false world.deferreds.size] rfl).beyond World.sight_newDeferred
  | findLoop _ | findQueue _ | queueLength _ | findPool _ | isShutdown _ | queuedJobs _
  | handle _ | load _ | cancel _ | stepMachine _ _ | dropMachine _ =>
      exact withNamed_ignores fun _ => .still rfl
  | thread _ _ | attempt _ => exact .putting rfl rfl
  | _ => exact .still rfl

/-- A small step ignores every concern that it is not about. -/
theorem next_ignores {state : State} (elsewhere : state.concern? ≠ some concern) :
    Ignores concern state.world state.base state.next := by
  obtain ⟨world, stack, control⟩ := state
  cases control with
  | program program =>
      cases program with
      | ret _ | panic _ => exact .still rfl
      | call request rest =>
          exact (requesting_ignores elsewhere).above [.program rest] rfl
  | task task => exact carryingOut_ignores elsewhere
  | reply reply =>
      cases stack with
      | nil => exact .still rfl
      | cons frame callers => exact returning_ignores elsewhere
  | unwind payload =>
      cases stack with
      | nil => exact .still rfl
      | cons frame callers => exact unwindingThrough_ignores elsewhere
  | halted reason => exact .still rfl

end Stepwise.State
