import Stepwise.Execution.Step

/-!
# What the library does

One function per task.  A task reads and changes the world, and then hands
control to user code, to another task, or back with a reply.
-/

namespace Stepwise.State

/-- A machine broke the protocol: report it, and panic, dropping the share of
the resumption on the way up.  The machine stays running for ever. -/
def violating (world : World) (stack : Stack) (machine : Nat) (error : Error) : State :=
  .dropping (world.record (.protocolViolated machine error)) stack [.activation machine]
    (.text s!"state machine {machineNumber machine}: {error.message}")

/-- Register a continuation on a deferred; on a complete one it runs at once. -/
def registering (world : World) (stack : Stack) (deferred : Nat)
    (continuation : Continuation) : State :=
  if world.isComplete deferred then
    ⟨world, stack, .task (.run continuation)⟩
  else
    .replying (world.modifyDeferred deferred (·.register continuation)) stack .done

/-- Publish an outcome, then fire the continuations in order. -/
def publishing (world : World) (stack : Stack) (deferred : Nat) (outcome : Outcome) :
    State :=
  match world.deferreds.get? deferred with
  | none => .replying world stack .done
  | some found =>
      let published := world.modifyDeferred deferred (·.publish outcome)
      let reported := published.record (.deferredCompleted found.continuations.length)
      ⟨reported, .firing deferred found.continuations :: stack, .reply .done⟩

/-- Wake the waker of a deferred, holding its lock meanwhile. -/
def awakening (world : World) (stack : Stack) (deferred : Nat) : State :=
  match world.deferreds.get? deferred with
  | none => .replying world stack .done
  | some found =>
      match found.lock, found.waker with
      | .held, _ => ⟨world, stack, .halted .deadlock⟩
      | .poisoned, _ => .panicking world stack poisonedMessage
      | .free, none => .replying world stack .done
      | .free, some waker =>
          let taken := world.modifyDeferred deferred fun deferred =>
            { deferred with waker := none, lock := .held }
          ⟨taken, .waking deferred (!stack.isPanicking) :: stack, .program waker.body⟩
where
  /-- The panic of whoever asks for a poisoned lock. -/
  poisonedMessage : String :=
    "called `Result::unwrap()` on an `Err` value: PoisonError \x7b .. \x7d"

/-- Run the step of a machine at its position, unless it was cancelled. -/
def advancing (world : World) (stack : Stack) (machine : Nat) : State :=
  match world.activations.get? machine with
  | none => .replying world stack .done
  | some found =>
      if found.cancelled then
        ⟨world, stack, .task (.finish machine (.error .cancelled))⟩
      else
        ⟨world.record (.runningStep machine found.position), .stepping machine :: stack,
          .task (.step (.started machine) found.position)⟩

/-- Resume a machine: claim it, check that what it awaited is complete, and run
its next step. -/
def resuming (world : World) (stack : Stack) (machine : Nat) : State :=
  match world.activations.get? machine with
  | none => .replying world stack .done
  | some found =>
      match found.status with
      | .finished =>
          ⟨world.record (.resumeIgnored machine), stack, .task (.discard (.activation machine))⟩
      | .running => .violating world stack machine (.invalid .overlap)
      | .idle =>
          let claimed := world.modifyActivation machine fun activation =>
            { activation with status := .running, pending := none }
          match found.pending with
          | none => ⟨claimed, stack, .task (.advance machine)⟩
          | some deferred =>
              if claimed.isComplete deferred then
                ⟨claimed.record (.resumed machine found.position), stack,
                  .task (.advance machine)⟩
              else
                .violating claimed stack machine (.invalid (.spurious found.position))

/-- Settle the outcome of a machine and tell its observer. -/
def finishing (world : World) (stack : Stack) (machine : Nat) (outcome : Outcome) : State :=
  match world.activations.get? machine with
  | none => .replying world stack .done
  | some found =>
      let finished := world.modifyActivation machine (·.finish)
      let reported := match outcome with
        | .ok _ => finished.record (.machineFinished machine)
        | .error error => finished.record (.machineFailed machine error)
      match found.observer with
      | none => ⟨reported, stack, .task (.discard (.activation machine))⟩
      | some (.callback body) =>
          ⟨reported, .releasing machine :: stack, .program (body outcome)⟩
      | some (.writer deferred) =>
          ⟨reported, .releasing machine :: stack, .task (.publish deferred outcome)⟩

/-- A resumption dropped before it ran finishes its machine, as long as nothing
else is resuming it. -/
def abandoning (world : World) (stack : Stack) (machine : Nat) : State :=
  match world.activations.get? machine with
  | none => .replying world stack .done
  | some found =>
      match found.status with
      | .idle =>
          let claimed := world.modifyActivation machine fun activation =>
            { activation with status := .running }
          ⟨claimed.record (.resumptionDropped machine), stack,
            .task (.finish machine (.error .shutdown))⟩
      | _ => ⟨world, stack, .task (.discard (.activation machine))⟩

/-- Hand a continuation to a scheduler. -/
def scheduling (world : World) (stack : Stack) (scheduler : Scheduler)
    (continuation : Continuation) : State :=
  match scheduler with
  | .inline => ⟨world, stack, .task (.run continuation)⟩
  | .pool pool =>
      if world.acceptsJobs pool then
        .replying (world.modifyPool pool (·.push continuation)) stack .done
      else
        ⟨world.record .poolGone, stack, .task (.run continuation)⟩
  | .loop loop =>
      if world.isLoopAlive loop then
        .replying (world.modifyLoop loop (·.push continuation)) stack .done
      else
        ⟨world, .recording .loopGone :: stack,
          .task (.discard (.continuation continuation))⟩
  | .queue queue =>
      if world.hasQueue queue then
        .replying (world.modifyQueue queue (· ++ [some continuation])) stack .done
      else
        ⟨world, stack, .task (.discard (.continuation continuation))⟩
  | .discard => ⟨world, stack, .task (.discard (.continuation continuation))⟩

/-- Run a continuation. -/
def runningContinuation (world : World) (stack : Stack) : Continuation → State
  | .callback body => ⟨world, stack, .program body⟩
  | .handOver scheduler machine =>
      ⟨world, stack, .task (.schedule scheduler (.resumption machine))⟩
  | .resumption machine => ⟨world, stack, .task (.resume machine)⟩
  | .job deferred work => ⟨world, .working deferred :: stack, .program work⟩
  | .signal waiter =>
      .replying (world.modifyWaiter waiter fun waiter => { waiter with signal := .woken })
        stack .done

/-- Give up one share in a machine.  The last one takes the observer along. -/
def releasingShare (world : World) (stack : Stack) (machine : Nat) : State :=
  match world.activations.get? machine with
  | none => .replying world stack .done
  | some found =>
      let released := world.modifyActivation machine fun activation =>
        { activation with owners := activation.owners - 1 }
      if found.owners ≤ 1 then
        let emptied := released.modifyActivation machine fun activation =>
          { activation with observer := none }
        match found.observer with
        | some (.writer deferred) => ⟨emptied, stack, .task (.discard (.writer deferred))⟩
        | _ => .replying emptied stack .done
      else
        .replying released stack .done

/-- Shut a pool down: stop its workers, then drop its jobs in order. -/
def shuttingDown (world : World) (stack : Stack) (pool : Nat) : State :=
  match world.pools.get? pool with
  | none => .replying world stack .done
  | some found =>
      if found.isBusy then ⟨world, stack, .halted .deadlock⟩
      else
        let closed := world.modifyPool pool (·.close)
        let reported :=
          if found.jobs.isEmpty then closed
          else closed.record (.jobsDropped found.jobs.length)
        ⟨reported,
          .disposing (found.jobs.map .continuation) :: .recording .runtimeShutDown :: stack,
          .reply .done⟩

/-- Drop something. -/
def discarding (world : World) (stack : Stack) : Owned → State
  | .continuation (.callback _) => .replying world stack .done
  | .continuation (.handOver _ machine) => .abandoning world stack machine
  | .continuation (.resumption machine) => .abandoning world stack machine
  | .continuation (.job deferred _) => ⟨world, stack, .task (.discard (.writer deferred))⟩
  | .continuation (.signal waiter) =>
      .replying (world.modifyWaiter waiter fun waiter => { waiter with signal := .lost })
        stack .done
  | .writer deferred =>
      ⟨world.record .deferredAbandoned, stack, .task (.publish deferred (.error .shutdown))⟩
  | .activation machine => .releasingShare world stack machine
  | .loop loop => ⟨world, .closing loop 0 :: stack, .reply .done⟩
  | .runtime pool => .shuttingDown world stack pool

/-- Carry out a task. -/
def carryingOut (world : World) (stack : Stack) : Task → State
  | .run continuation => .runningContinuation world stack continuation
  | .discard owned => .discarding world stack owned
  | .publish deferred outcome => .publishing world stack deferred outcome
  | .schedule scheduler continuation => .scheduling world stack scheduler continuation
  | .resume machine => .resuming world stack machine
  | .advance machine => .advancing world stack machine
  | .step place position => .runningStep world stack place position
  | .finish machine outcome => .finishing world stack machine outcome

end Stepwise.State
