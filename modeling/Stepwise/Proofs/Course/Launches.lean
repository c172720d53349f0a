import Stepwise.Proofs.Course.CalmRequests
import Stepwise.Proofs.Course.Strides

/-!
# Launches

Above a frame that waits for a launch, the launched work is run, or its job is dropped and
its outcome published to nobody.  A small step goes on above the frames it leaves alone;
what it stacks there is a launch only when it dispatches a work just now.
-/

namespace Stepwise

variable {shared : Nat → Prop} {world later : World} {base stack : Stack} {after : State}
  {deferred : Nat}

/-- An outcome nobody listens for is published, with nothing else above. -/
inductive Settling (deferred : Nat) : Stack → Control → Prop where
  | dropped {work : Program} :
      Settling deferred [] (.task (.discard (.continuation (.job deferred work))))
  | lost : Settling deferred [] (.task (.discard (.writer deferred)))
  | published {outcome : Outcome} : Settling deferred [] (.task (.publish deferred outcome))
  | fired {reply : Reply} : Settling deferred [.firing deferred []] (.reply reply)
  | settled {reply : Reply} : Settling deferred [] (.reply reply)

/-- What happens above a frame that waits for the launch of a work. -/
inductive Dispatches (deferred : Nat) : Stack → Control → Prop where
  /-- The work is run at once; whatever it does is stacked above. -/
  | run {above : Stack} {control : Control} :
      Dispatches deferred (above ++ [.working deferred]) control
  | settling {above : Stack} {control : Control} :
      Settling deferred above control → Dispatches deferred above control
  /-- The work was dispatched where jobs are no longer accepted. -/
  | refused {above : Stack} {control : Control} {record : Record} :
      Settling deferred above control →
        Dispatches deferred (above ++ [.recording record]) control

/-- No panic is about to leave a launch. -/
theorem Dispatches.ne_unwind {payload : Payload}
    (dispatches : Dispatches deferred [] (.unwind payload)) : False := by
  generalize empty : ([] : Stack) = above at dispatches
  cases dispatches with
  | run => simp at empty
  | refused _ => simp at empty
  | settling settling => cases settling

/-! ## What a small step stacks -/

/-- Whether a frame neither wakes anybody nor waits for a launch. -/
def Frame.isMild : Frame → Bool
  | .waking _ _ => false
  | .launched _ _ _ => false
  | _ => true

theorem Frame.isMild_of_isPlain {frame : Frame} (plain : frame.isPlain = true) :
    frame.isMild = true := by
  cases frame <;> first | rfl | cases plain

/-- What a small step stacks: mild frames; a frame that wakes somebody who listens to a
shared deferred; or a launch with what happens above it. -/
inductive State.Stacks (shared : Nat → Prop) (world : World) (after : State) : Stack → Prop where
  | mild {new : Stack} : new.all Frame.isMild = true → Stacks shared world after new
  | waking {deferred : Nat} {poisons : Bool} : shared deferred →
      (world.deferreds.get? deferred).isSome = true →
        Stacks shared world after [.waking deferred poisons]
  | launch {place : Place} {number : Nat} {above : Stack} : above.all Frame.isMild = true →
      Dispatches world.deferreds.size above after.control →
        (after.world.deferreds.get? world.deferreds.size).isSome = true →
          after.world.given = world.given → after.world.Unheard world.deferreds.size →
            Stacks shared world after (above ++ [.launched place number world.deferreds.size])

/-- A small step goes on discreetly above the frames that it leaves alone. -/
structure State.Advances (shared : Nat → Prop) (world : World) (base : Stack) (after : State) :
    Prop where
  changed : world.Discreet shared after.world
  stacked : ∃ new, after.stack = new ++ base ∧ after.Stacks shared world new

namespace State

/-- A calm small step goes on above. -/
theorem Calm.advances {may : Nat → Prop} (calm : State.Calm may shared world base after) :
    after.Advances shared world base := by
  obtain ⟨plain, placed, all⟩ := calm.stack
  refine ⟨calm.world.toDiscreet, plain, placed, .mild ?_⟩
  rw [List.all_eq_true] at all ⊢
  exact fun frame member => Frame.isMild_of_isPlain (all frame member)

/-- Mild frames are stacked. -/
theorem Advances.mild {control : Control} (new : Stack) (mild : new.all Frame.isMild = true)
    (changed : world.Discreet shared later) :
    Advances shared world base ⟨later, new ++ base, control⟩ :=
  ⟨changed, new, rfl, .mild mild⟩

/-- A small step that first changes something but its deferreds. -/
theorem Advances.beyond (same : later.deferreds = world.deferreds)
    (given : later.given = world.given) (advances : after.Advances shared later base) :
    after.Advances shared world base := by
  obtain ⟨changed, new, placed, stacked⟩ := advances
  refine ⟨.trans (.same same given) changed, new, placed, ?_⟩
  cases stacked with
  | mild all => exact .mild all
  | waking known present => exact .waking known (same ▸ present)
  | launch all dispatches present still unheard =>
      rw [same] at dispatches present unheard ⊢
      exact .launch all dispatches present (still.trans given) unheard

/-! ## The steps of machines -/

/-- A dispatch by a step stacks a launch, or panics outside every runtime. -/
theorem dispatching_advances {target : Target} {work : Program} {place : Place}
    {number : Nat} :
    (dispatching world base target false work
      fun deferred => .launched place number deferred :: base).Advances shared world base := by
  have unheard {later : World} (same : later.deferreds = world.newDeferred.1.deferreds) :
      later.Unheard world.deferreds.size ∧
        (later.deferreds.get? world.deferreds.size).isSome = true := by
    rw [World.Unheard, same]
    simp [World.newDeferred, Deferred.IsUnheard, Deferred.fresh]
  have added : world.Discreet shared world.newDeferred.1 := by
    have calm : world.Calm (fun _ => False) shared world.newDeferred.1 := .newDeferred world
    exact calm.toDiscreet
  have queueing (pool : Nat) : State.Advances shared world base
      (if world.acceptsJobs pool then
        .replying (world.newDeferred.1.modifyPool pool
          (·.push (.job world.deferreds.size work)))
            (.launched place number world.deferreds.size :: base) .done
      else
        ⟨world.newDeferred.1, .recording .dispatchedAfterShutdown ::
            .launched place number world.deferreds.size :: base,
          .task (.discard (.continuation (.job world.deferreds.size work)))⟩) := by
    split
    · refine ⟨added.trans (.same rfl rfl), [.launched place number world.deferreds.size], rfl,
        ?_⟩
      exact @Stacks.launch _ _ _ place number [] rfl (.settling .settled) (unheard rfl).2 rfl
        (unheard rfl).1
    · refine ⟨added, [.recording .dispatchedAfterShutdown,
        .launched place number world.deferreds.size], rfl, ?_⟩
      exact @Stacks.launch _ _ _ place number [.recording .dispatchedAfterShutdown] rfl
        (.refused .dropped) (unheard rfl).2 rfl (unheard rfl).1
  cases target with
  | immediate =>
      refine ⟨added, [.working world.deferreds.size,
        .launched place number world.deferreds.size], rfl, ?_⟩
      exact @Stacks.launch _ _ _ place number [.working world.deferreds.size] rfl
        (@Dispatches.run _ [] _) (unheard rfl).2 rfl (unheard rfl).1
  | pool pool => exact queueing pool
  | context =>
      cases context : world.thread.context with
      | none =>
          simp only [dispatching, context]
          exact .mild [] rfl (.same rfl rfl)
      | some pool =>
          simp only [dispatching, context]
          exact queueing pool

theorem replying_advances {reply : Reply} (changed : world.Discreet shared later) :
    (State.replying later base reply).Advances shared world base :=
  .mild [] rfl changed

variable {place : Place} {number : Nat} {position : Position} {change : Body → Body}

theorem given_modifyBody : (world.modifyBody place change).given = world.given := by
  cases place <;> rfl

theorem modifyBody_discreet : world.Discreet shared (world.modifyBody place change) :=
  .same (World.deferreds_modifyBody place change) given_modifyBody

theorem launchingStage_advances {pipeline : Pipeline} {input : Value} :
    (launchingStage world base place pipeline number input).Advances shared world base := by
  unfold launchingStage
  split
  · exact replying_advances (.same rfl rfl)
  · exact .beyond (World.deferreds_modifyBody place _) given_modifyBody dispatching_advances

theorem launchingWork_advances {demo : CubeRoot} {work : Program} :
    (launchingWork world base place demo number work).Advances shared world base :=
  .beyond (World.deferreds_modifyBody place _) given_modifyBody dispatching_advances

/-- A step that takes what it awaited goes on above. -/
theorem takingAwaited_advances {proceed : World → Value → State}
    (goesOn : ∀ later value, world.Discreet shared later →
      (proceed later value).Advances shared world base) :
    (takingAwaited world base deferred proceed).Advances shared world base := by
  have taken : world.Calm (fun _ => True) shared (world.retrieve deferred).1 :=
    .retrieve deferred trivial
  simp only [takingAwaited]
  split
  · exact goesOn _ _ taken.toDiscreet
  · exact replying_advances taken.toDiscreet

theorem steppingPipeline_advances {pipeline : Pipeline} :
    (steppingPipeline world base place pipeline position).Advances shared world base := by
  cases position with
  | notStarted =>
      simp only [steppingPipeline]
      split
      · exact replying_advances (.same rfl rfl)
      · split
        · exact replying_advances modifyBody_discreet
        · exact .beyond (World.deferreds_modifyBody place _) given_modifyBody
            launchingStage_advances
  | suspension number =>
      simp only [steppingPipeline]
      split
      · exact replying_advances (.same rfl rfl)
      · refine .beyond (World.deferreds_modifyBody place _) given_modifyBody
          (takingAwaited_advances ?_)
        intro later value changed
        exact .mild [.inspected place number value] rfl changed
  | finished => exact replying_advances (.same rfl rfl)

theorem steppingCubeRoot_advances {demo : CubeRoot} :
    (steppingCubeRoot world base place demo position).Advances shared world base := by
  unfold steppingCubeRoot
  split
  · exact .mild [.announced place .started] rfl (.same rfl rfl)
  · split
    · exact replying_advances (.same rfl rfl)
    · refine .beyond (World.deferreds_modifyBody place _) given_modifyBody
        (takingAwaited_advances ?_)
      intro later value changed
      exact .mild [.announced place _] rfl (changed.trans modifyBody_discreet)
  · split
    · exact replying_advances (.same rfl rfl)
    · refine .beyond (World.deferreds_modifyBody place _) given_modifyBody
        (takingAwaited_advances ?_)
      intro later value changed
      exact .mild [.announced place _] rfl (changed.trans modifyBody_discreet)
  · exact replying_advances (.same rfl rfl)

theorem runningStep_advances :
    (runningStep world base place position).Advances shared world base := by
  unfold runningStep
  split
  · exact replying_advances (.same rfl rfl)
  · exact .mild [] rfl (.same rfl rfl)
  · exact steppingPipeline_advances
  · exact steppingCubeRoot_advances

/-- What follows within a step goes on above. -/
theorem returning_within_advances {frame : Frame} {reply : Reply}
    (within : frame.place? = some place) :
    (returning world base reply frame).Advances shared world base := by
  cases frame with
  | inspected place number value =>
      simp only [returning, inspectedValue]
      split
      · split
        · exact launchingStage_advances
        · exact replying_advances (.same rfl rfl)
      · exact replying_advances (.same rfl rfl)
  | announced place announcement =>
      simp only [returning, announcedProgress]
      split
      · cases announcement with
        | started => exact launchingWork_advances
        | cube _ => exact launchingWork_advances
        | root _ => exact .mild [.announced place .finished] rfl (.same rfl rfl)
        | finished => exact replying_advances (.same rfl rfl)
      · exact replying_advances (.same rfl rfl)
  | launched place number deferred => exact replying_advances modifyBody_discreet
  | _ => cases within

end State

end Stepwise
