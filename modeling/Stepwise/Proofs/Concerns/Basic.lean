import Stepwise.Proofs.Alarms.Basic
import Stepwise.Proofs.Course.Shelter

/-!
# What small steps ignore

Alarms and wakers are one concern, receipts and blocked threads another, event loops a third.
No small step is about more than one of them, and which one it is can be read off what control
and the innermost frame are.  It ignores the others: what belongs to them stays as it is, and
no frame is put up that is about them.
-/

namespace Stepwise

/-- What a small step can be about. -/
inductive Concern where
  | alarms
  | receipts
  | loops
  deriving DecidableEq

/-- What belongs to a concern.  The next unused number is an identity of wakers to be. -/
inductive Sight where
  | alarms (alarm : Nat → Alarm) (wakers : Table Waker) (fresh : Nat)
  | receipts (given : List Nat) (waiters : Store Waiter)
  | loops (loops : Store EventLoop)

/-- What is to be seen of a world by whoever cares about one concern alone. -/
def World.sight (world : World) : Concern → Sight
  | .alarms => .alarms world.alarm world.wakers world.fresh
  | .receipts => .receipts world.given world.waiters
  | .loops => .loops world.loops

/-! ## What a small step is about -/

/-- What a frame is about. -/
def Frame.concern? : Frame → Option Concern
  | .waking _ _ => some .alarms
  | .blocking _ _ _ => some .receipts
  | .turning _ _ | .looping _ _ _ | .deciding _ _ | .pumping _ | .closing _ _ => some .loops
  | _ => none

/-- What a reply to a frame is about. -/
def Frame.concernOfReply? : Frame → Option Concern
  -- The batch is through, and the waker is woken next.
  | .firing _ [] => some .alarms
  | .placing _ _ _ => some .receipts
  | frame => frame.concern?

/-- What running a continuation is about, or dropping it. -/
def Continuation.concern? : Continuation → Option Concern
  | .signal _ => some .receipts
  | _ => none

/-- What dropping something is about. -/
def Owned.concern? : Owned → Option Concern
  | .continuation dropped => dropped.concern?
  | .loop _ => some .loops
  | _ => none

/-- What sending a continuation to a scheduler is about. -/
def Scheduler.concern? : Scheduler → Option Concern
  | .loop _ => some .loops
  | _ => none

def Task.concern? : Task → Option Concern
  | .run continuation => continuation.concern?
  | .discard owned => owned.concern?
  | .schedule scheduler _ => scheduler.concern?
  | _ => none

def Request.concern? : Request → Option Concern
  | .newWaker _ _ | .poll _ _ | .newRegion => some .alarms
  | .pending _ _ _ | .toAwaiter _ | .wait _ | .collect _ | .run _ _ _
  | .startAwaitable _ _ _ _ _ => some .receipts
  | .newLoop _ | .turnLoop _ | .runLoop _ | .runLoopUntil _ _ _ _ => some .loops
  | _ => none

/-- What a small step is about. -/
def State.concern? (state : State) : Option Concern :=
  match state.control, state.stack with
  | .program (.call request _), _ => request.concern?
  | .task task, _ => task.concern?
  | .reply _, frame :: _ => frame.concernOfReply?
  | .unwind _, frame :: _ => frame.concern?
  | _, _ => none

/-- What belongs to a concern is left as it is, and no frame is put up that is about it. -/
structure State.Ignores (concern : Concern) (world : World) (base : Stack) (after : State) :
    Prop where
  sight : after.world.sight concern = world.sight concern
  stack : ∃ new, after.stack = new ++ base ∧ new.all (·.concern? != some concern) = true

variable {concern : Concern} {world later : World} {stack base : Stack} {after : State}
  {deferred machine loop : Nat} {place : Place} {reply : Reply} {payload : Payload}
  {continuation : Continuation}

/-- A reply to a frame is about what the frame is about. -/
theorem Frame.concernOfReply?_of_concern? {frame : Frame} (about : frame.concern? = some concern) :
    frame.concernOfReply? = some concern := by
  cases frame with
  | firing _ _ | placing _ _ _ => cases about
  | _ => exact about

/-! ## Changes of a world -/

namespace World

theorem sight_congr (alarm : later.alarm = world.alarm) (wakers : later.wakers = world.wakers)
    (fresh : later.fresh = world.fresh) (given : later.given = world.given)
    (waiters : later.waiters = world.waiters) (loops : later.loops = world.loops) :
    later.sight concern = world.sight concern := by
  cases concern <;> simp [sight, *]

/-! A change that is about one concern leaves the others alone. -/

theorem sight_but_alarms (elsewhere : some .alarms ≠ some concern)
    (given : later.given = world.given) (waiters : later.waiters = world.waiters)
    (loops : later.loops = world.loops) : later.sight concern = world.sight concern := by
  cases concern with
  | alarms => exact absurd rfl elsewhere
  | receipts | loops => simp [sight, *]

theorem sight_but_receipts (elsewhere : some .receipts ≠ some concern)
    (alarm : later.alarm = world.alarm) (wakers : later.wakers = world.wakers)
    (fresh : later.fresh = world.fresh) (loops : later.loops = world.loops) :
    later.sight concern = world.sight concern := by
  cases concern with
  | receipts => exact absurd rfl elsewhere
  | alarms | loops => simp [sight, *]

theorem sight_but_loops (elsewhere : some .loops ≠ some concern)
    (alarm : later.alarm = world.alarm) (wakers : later.wakers = world.wakers)
    (fresh : later.fresh = world.fresh) (given : later.given = world.given)
    (waiters : later.waiters = world.waiters) : later.sight concern = world.sight concern := by
  cases concern with
  | loops => exact absurd rfl elsewhere
  | alarms | receipts => simp [sight, *]

theorem sight_record {record : Record} :
    (world.record record).sight concern = world.sight concern :=
  rfl

theorem sight_newDeferred : world.newDeferred.1.sight concern = world.sight concern :=
  sight_congr (alarm_of_push rfl) rfl rfl rfl rfl rfl

/-- A change that is none to the waker or the lock. -/
theorem sight_modifyDeferred {change : Deferred → Deferred}
    (same : ∀ found, (change found).alarm = found.alarm) :
    (world.modifyDeferred deferred change).sight concern = world.sight concern :=
  sight_congr (alarm_modify_of_same deferred same) rfl rfl rfl rfl rfl

theorem sight_retrieve : (world.retrieve deferred).1.sight concern = world.sight concern := by
  unfold retrieve
  split
  · rfl
  · refine sight_modifyDeferred fun found => ?_
    unfold Deferred.afterRetrieval
    split <;> rfl

theorem sight_modifyBody {change : Body → Body} :
    (world.modifyBody place change).sight concern = world.sight concern := by
  cases place <;> rfl

theorem sight_modifyWaiter {waiter : Nat} {change : Waiter → Waiter}
    (elsewhere : some .receipts ≠ some concern) :
    (world.modifyWaiter waiter change).sight concern = world.sight concern :=
  sight_but_receipts elsewhere rfl rfl rfl rfl

theorem sight_putReceipt (name : Name) (raw : Bool)
    (elsewhere : some .receipts ≠ some concern) :
    (world.putReceipt name deferred raw).sight concern = world.sight concern :=
  sight_but_receipts elsewhere rfl rfl rfl rfl

theorem sight_block {run : Option (Nat × Nat)} (elsewhere : some .receipts ≠ some concern) :
    (world.block deferred run).sight concern = world.sight concern :=
  sight_but_receipts elsewhere rfl rfl rfl rfl

theorem sight_modifyLoop {change : EventLoop → EventLoop}
    (elsewhere : some .loops ≠ some concern) :
    (world.modifyLoop loop change).sight concern = world.sight concern :=
  sight_but_loops elsewhere rfl rfl rfl rfl rfl

end World

namespace State

namespace Ignores

/-- The frames that are put up are about something else. -/
theorem exists_above (ignores : Ignores concern world base after) :
    ∃ new, after.stack = new ++ base ∧ ∀ frame ∈ new, frame.concern? ≠ some concern := by
  obtain ⟨new, placed, others⟩ := ignores.stack
  exact ⟨new, placed, by simpa using others⟩

/-- A change of the world before is ignored too, if it leaves the concern alone. -/
theorem beyond (ignores : Ignores concern later base after)
    (same : later.sight concern = world.sight concern) : Ignores concern world base after :=
  ⟨ignores.sight.trans same, ignores.stack⟩

/-- What is so above frames that are about something else is so beneath them. -/
theorem above (new : Stack) (others : new.all (·.concern? != some concern) = true)
    (ignores : Ignores concern world (new ++ base) after) : Ignores concern world base after := by
  obtain ⟨same, higher, placed, quiet⟩ := ignores
  exact ⟨same, higher ++ new, by rw [placed, List.append_assoc], by simp [quiet, others]⟩

/-- No frame is put up. -/
theorem still {control : Control} (same : later.sight concern = world.sight concern) :
    Ignores concern world base ⟨later, base, control⟩ :=
  ⟨same, [], rfl, rfl⟩

/-- A frame is put up that is about something else. -/
theorem under {frame : Frame} {control : Control} (others : frame.concern? ≠ some concern)
    (same : later.sight concern = world.sight concern) :
    Ignores concern world base ⟨later, frame :: base, control⟩ :=
  ⟨same, [frame], rfl, by simpa using others⟩

/-- A frame is put up that is about no concern at all. -/
theorem putting {frame : Frame} {control : Control} (free : frame.concern? = none)
    (same : later.sight concern = world.sight concern) :
    Ignores concern world base ⟨later, frame :: base, control⟩ :=
  under (by simp [free]) same

end Ignores

/-! ## Tasks -/

theorem replying_ignores : Ignores concern world stack (.replying world stack reply) :=
  .still rfl

theorem refusing_ignores {refusal : Refusal} :
    Ignores concern world stack (.refusing world stack refusal) :=
  .still rfl

theorem performing_ignores {task : Task} :
    Ignores concern world stack (.performing world stack task reply) :=
  .putting rfl rfl

theorem disposing_ignores {displaced : List Owned} :
    Ignores concern world stack (.disposing world stack displaced reply) := by
  cases displaced with
  | nil => exact replying_ignores
  | cons first rest =>
      exact ⟨rfl, [.disposing (first :: rest), .answering reply], rfl, rfl⟩

theorem dropping_ignores {owned : List Owned} :
    Ignores concern world stack (.dropping world stack owned payload) := by
  cases owned with
  | nil => exact .still rfl
  | cons first rest => exact .putting rfl rfl

theorem violating_ignores {error : Error} :
    Ignores concern world stack (violating world stack machine error) :=
  dropping_ignores.beyond rfl

theorem registering_ignores :
    Ignores concern world stack (registering world stack deferred continuation) := by
  unfold registering
  split
  · exact .still rfl
  · exact replying_ignores.beyond (World.sight_modifyDeferred fun _ => rfl)

theorem publishing_ignores {outcome : Outcome} :
    Ignores concern world stack (publishing world stack deferred outcome) := by
  unfold publishing
  split
  · exact replying_ignores
  · exact .putting rfl (World.sight_record.trans (World.sight_modifyDeferred fun _ => rfl))

theorem awakening_ignores (elsewhere : some .alarms ≠ some concern) :
    Ignores concern world stack (awakening world stack deferred) := by
  unfold awakening
  split
  · exact replying_ignores
  · split
    · exact .still rfl
    · exact .still rfl
    · exact replying_ignores
    · exact .under elsewhere (World.sight_but_alarms elsewhere rfl rfl rfl)

theorem advancing_ignores : Ignores concern world stack (advancing world stack machine) := by
  unfold advancing
  split
  · exact replying_ignores
  · split
    · exact .still rfl
    · exact .putting rfl rfl

theorem resuming_ignores : Ignores concern world stack (resuming world stack machine) := by
  unfold resuming
  split
  · exact replying_ignores
  · split
    · exact .still rfl
    · exact violating_ignores
    · simp only
      split
      · exact .still rfl
      · split
        · exact .still rfl
        · exact violating_ignores.beyond rfl

theorem finishing_ignores {outcome : Outcome} :
    Ignores concern world stack (finishing world stack machine outcome) := by
  unfold finishing
  split
  · exact replying_ignores
  · cases outcome
    all_goals
      simp only
      split
      · exact .still rfl
      · exact .putting rfl rfl
      · exact .putting rfl rfl

theorem abandoning_ignores : Ignores concern world stack (abandoning world stack machine) := by
  unfold abandoning
  split
  · exact replying_ignores
  · split <;> exact .still rfl

theorem releasingShare_ignores :
    Ignores concern world stack (releasingShare world stack machine) := by
  unfold releasingShare
  split
  · exact replying_ignores
  · simp only
    split
    · split <;> exact .still rfl
    · exact .still rfl

theorem shuttingDown_ignores {pool : Nat} :
    Ignores concern world stack (shuttingDown world stack pool) := by
  unfold shuttingDown
  split
  · exact replying_ignores
  · next found _ =>
      split
      · exact .still rfl
      · simp only
        split
        all_goals
          exact ⟨rfl, [.disposing (found.jobs.map .continuation), .recording .runtimeShutDown],
            rfl, rfl⟩

theorem runningContinuation_ignores (elsewhere : continuation.concern? ≠ some concern) :
    Ignores concern world stack (runningContinuation world stack continuation) := by
  cases continuation with
  | signal waiter => exact replying_ignores.beyond (World.sight_modifyWaiter elsewhere)
  | job deferred work => exact .putting rfl rfl
  | _ => exact .still rfl

theorem scheduling_ignores {scheduler : Scheduler}
    (elsewhere : scheduler.concern? ≠ some concern) :
    Ignores concern world stack (scheduling world stack scheduler continuation) := by
  cases scheduler with
  | inline | discard => exact .still rfl
  | pool _ | queue _ =>
      simp only [scheduling]
      split <;> exact .still rfl
  | loop loop =>
      simp only [scheduling]
      split
      · exact replying_ignores.beyond (World.sight_modifyLoop elsewhere)
      · exact .putting rfl rfl

theorem discarding_ignores {owned : Owned} (elsewhere : owned.concern? ≠ some concern) :
    Ignores concern world stack (discarding world stack owned) := by
  cases owned with
  | continuation dropped =>
      cases dropped with
      | callback _ | job _ _ => exact .still rfl
      | handOver _ _ | resumption _ => exact abandoning_ignores
      | signal waiter => exact replying_ignores.beyond (World.sight_modifyWaiter elsewhere)
  | writer _ => exact .still rfl
  | activation machine => exact releasingShare_ignores
  | loop loop => exact .under elsewhere rfl
  | runtime pool => exact shuttingDown_ignores

/-! ## Steps of machines -/

/-- To dispatch work ignores what is ignored by those who wait for the dispatch. -/
theorem dispatching_ignores {target : Target} {infallible : Bool} {work : Program}
    {waiting : Nat → Stack}
    (waits : ∀ number, ∃ new, waiting number = new ++ stack ∧
      new.all (·.concern? != some concern) = true) :
    Ignores concern world stack (dispatching world stack target infallible work waiting) := by
  obtain ⟨new, placed, others⟩ := waits world.deferreds.size
  have queueing (pool : Nat) : Ignores concern world stack
      (if world.acceptsJobs pool then
        State.replying (world.newDeferred.1.modifyPool pool
          (·.push (.job world.deferreds.size work))) (waiting world.deferreds.size) .done
      else
        ⟨world.newDeferred.1, .recording .dispatchedAfterShutdown ::
            waiting world.deferreds.size,
          .task (.discard (.continuation (.job world.deferreds.size work)))⟩) := by
    split
    · exact ⟨World.sight_newDeferred, new, placed, others⟩
    · exact ⟨World.sight_newDeferred, .recording .dispatchedAfterShutdown :: new,
        by simp [placed], others⟩
  cases target with
  | immediate =>
      exact ⟨World.sight_newDeferred, .working world.deferreds.size :: new,
        by simp [dispatching, World.newDeferred, placed], others⟩
  | pool pool => exact queueing pool
  | context =>
      simp only [dispatching]
      split
      · exact queueing _
      · exact .still rfl

theorem launchingStage_ignores {pipeline : Pipeline} {number : Nat} {input : Value} :
    Ignores concern world stack (launchingStage world stack place pipeline number input) := by
  unfold launchingStage
  split
  · exact replying_ignores
  · refine Ignores.beyond (dispatching_ignores fun deferred => ?_) World.sight_modifyBody
    exact ⟨[.launched place number deferred], rfl, rfl⟩

theorem launchingWork_ignores {demo : CubeRoot} {number : Nat} {work : Program} :
    Ignores concern world stack (launchingWork world stack place demo number work) := by
  unfold launchingWork
  refine Ignores.beyond (dispatching_ignores fun deferred => ?_) World.sight_modifyBody
  exact ⟨[.launched place number deferred], rfl, rfl⟩

/-- To take what was awaited ignores what is ignored afterwards. -/
theorem takingAwaited_ignores {proceed : World → Value → State}
    (proceeds : ∀ later value, Ignores concern later stack (proceed later value)) :
    Ignores concern world stack (takingAwaited world stack deferred proceed) := by
  simp only [takingAwaited]
  split
  · exact (proceeds _ _).beyond World.sight_retrieve
  · exact replying_ignores.beyond World.sight_retrieve

theorem announcing_ignores {demo : CubeRoot} {announcement : Announcement} :
    Ignores concern world stack (announcing world stack place demo announcement) :=
  .putting rfl rfl

theorem steppingPipeline_ignores {pipeline : Pipeline} {position : Position} :
    Ignores concern world stack (steppingPipeline world stack place pipeline position) := by
  unfold steppingPipeline
  split
  · split
    · exact replying_ignores
    · simp only
      split
      · exact replying_ignores.beyond World.sight_modifyBody
      · exact launchingStage_ignores.beyond World.sight_modifyBody
  · next number =>
      split
      · exact replying_ignores
      · refine Ignores.beyond (takingAwaited_ignores fun later value => ?_)
          World.sight_modifyBody
        exact .putting rfl rfl
  · exact replying_ignores

theorem steppingCubeRoot_ignores {demo : CubeRoot} {position : Position} :
    Ignores concern world stack (steppingCubeRoot world stack place demo position) := by
  unfold steppingCubeRoot
  split
  · exact announcing_ignores
  · split
    · exact replying_ignores
    · exact Ignores.beyond (takingAwaited_ignores fun later value =>
        announcing_ignores.beyond World.sight_modifyBody) World.sight_modifyBody
  · split
    · exact replying_ignores
    · exact Ignores.beyond (takingAwaited_ignores fun later value =>
        announcing_ignores.beyond World.sight_modifyBody) World.sight_modifyBody
  · exact replying_ignores

theorem runningStep_ignores {position : Position} :
    Ignores concern world stack (runningStep world stack place position) := by
  unfold runningStep
  split
  · exact replying_ignores
  · exact .still rfl
  · exact steppingPipeline_ignores
  · exact steppingCubeRoot_ignores

theorem carryingOut_ignores {task : Task} (elsewhere : task.concern? ≠ some concern) :
    Ignores concern world stack (carryingOut world stack task) := by
  cases task with
  | run _ => exact runningContinuation_ignores elsewhere
  | discard _ => exact discarding_ignores elsewhere
  | publish _ _ => exact publishing_ignores
  | schedule _ _ => exact scheduling_ignores elsewhere
  | resume _ => exact resuming_ignores
  | advance _ => exact advancing_ignores
  | step _ _ => exact runningStep_ignores
  | finish _ _ => exact finishing_ignores

end State

end Stepwise
