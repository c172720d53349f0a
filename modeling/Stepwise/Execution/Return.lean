import Stepwise.Execution.Task

/-!
# Replies and panics on their way

A reply goes to the innermost frame, which goes on with it.  A panic goes up
frame by frame; each frame drops what it owns, and a capture turns the panic
into a result.  A panic that meets one already on its way ends the run.
-/

namespace Stepwise

namespace World

/-- Give a driven loop back to its name; another loop of that name is dropped. -/
def restoreLoop (world : World) (name : Name) (loop : Nat) : World × List Owned :=
  let displaced := match world.ownedLoops.find? name with
    | some other => [Owned.loop other]
    | none => []
  ({ world with ownedLoops := world.ownedLoops.insert name loop }, displaced)

/-- What the step of a machine says by its reply.  A suspension cannot be made up: a reply
that names any other deferred than the step can await says nothing. -/
def judge (world : World) (machine : Nat) (reply : Reply) : StepResult :=
  match reply.asStep with
  | .await resumeAt deferred =>
      if world.mayAwait machine deferred then .await resumeAt deferred else .complete .null
  | result => result

/-- A call inside a runtime was left by a panic.  The context stays behind. -/
def abort (world : World) (pool : Nat) : World :=
  world.modifyPool pool fun pool => { pool with entered := pool.entered - 1 }

/-- A call inside a runtime has ended: the thread's context is the one before. -/
def leave (world : World) (pool : Nat) (saved : Option Nat) : World :=
  let left := world.abort pool
  { left with thread := { left.thread with context := saved } }

end World

namespace State

/-- A loop that has been driven is given back, and the drive ends with a reply. -/
def parking (world : World) (stack : Stack) (name : Name) (loop : Nat) (reply : Reply) :
    State :=
  let (restored, displaced) := world.restoreLoop name loop
  .disposing restored stack displaced reply

/-- A loop that is being driven is given back by a panic. -/
def parkingUnwound (world : World) (stack : Stack) (name : Name) (loop : Nat)
    (payload : Payload) : State :=
  let (restored, displaced) := world.restoreLoop name loop
  .dropping restored stack displaced payload

/-- Call the condition of a drive. -/
def deciding (world : World) (stack : Stack) (drive : Drive) (last : Bool) : State :=
  ⟨world, .deciding { drive with calls := drive.calls + 1 } last :: stack,
    .program drive.condition⟩

/-- Make one turn of a drive. -/
def pumping (world : World) (stack : Stack) (drive : Drive) : State :=
  match world.loopQueue drive.loop with
  | [] =>
      .deciding world stack
        { drive with turns := drive.turns + 1, idle := drive.idle + 1 } false
  | continuation :: rest =>
      let popped := world.modifyLoop drive.loop fun loop => { loop with queue := rest }
      ⟨popped, .pumping { drive with turns := drive.turns + 1 } :: stack,
        .task (.run continuation)⟩

/-- Go on with the answer of a drive's condition. -/
def decided (world : World) (stack : Stack) (drive : Drive) (last holds : Bool) : State :=
  if holds || last then
    .parking world stack drive.name drive.loop (.condition holds drive.calls)
  else if drive.deadline ≤ drive.clock drive.turns drive.idle then
    .deciding world stack drive true
  else
    .pumping world stack drive

/-- Go on after a step has replied. -/
def stepped (world : World) (stack : Stack) (machine : Nat) (result : StepResult) : State :=
  match result with
  | .complete value => ⟨world, stack, .task (.finish machine (.ok value))⟩
  | .fail error =>
      if error.isFatal then .violating world stack machine error
      else ⟨world, stack, .task (.finish machine (.error error))⟩
  | .await resumeAt deferred =>
      let position := Position.suspension resumeAt
      let moved := world.modifyActivation machine fun activation =>
        { activation with position := position }
      if world.isComplete deferred then
        ⟨moved.record (.alreadyComplete machine position), stack, .task (.advance machine)⟩
      else
        let suspended := (moved.record (.suspended machine position)).modifyActivation machine
          (·.suspend deferred)
        let scheduler := ((world.activations.get? machine).map (·.scheduler)).getD .inline
        .registering suspended stack deferred (.handOver scheduler machine)

/-- Go on after a step has panicked. -/
def stepPanicked (world : World) (stack : Stack) (machine : Nat) (payload : Payload) : State :=
  let position := ((world.activations.get? machine).map (·.position)).getD .notStarted
  ⟨world, stack, .task (.finish machine (.error (.stepPanicked position payload.message)))⟩

/-- Go on with the outcome of a work. -/
def worked (world : World) (stack : Stack) (deferred : Nat) (result : Except Failure Value) :
    State :=
  let outcome := match result with
    | .ok value => .ok value
    | .error failure => .error (.work failure)
  ⟨world, stack, .task (.publish deferred outcome)⟩

/-- Give the handle of a machine that has been started to its name. -/
def started (world : World) (stack : Stack) (handle : Name) (machine : Nat) : State :=
  let displaced := match world.handles.find? handle with
    | some other => [Owned.activation other]
    | none => []
  .disposing { world with handles := world.handles.insert handle machine } stack displaced
    (.handle machine (world.isFinished machine))

/-- Block the current thread on a deferred until its continuations are fired. -/
def waiting (world : World) (stack : Stack) (deferred : Nat) (run : Option (Nat × Nat)) :
    State :=
  let waiter := world.waiters.size
  let blocked := { world with waiters := world.waiters.push ⟨deferred, .waiting, run⟩ }
  .registering blocked (.answering (.reference waiter) :: stack) deferred (.signal waiter)

/-- Drop the next of several things. -/
def disposingNext (world : World) (stack : Stack) : List Owned → State
  | [] => .replying world stack .done
  | owned :: rest => ⟨world, .disposing rest :: stack, .task (.discard owned)⟩

/-- Drop the next of several things that a panic passes. -/
def unwindingNext (world : World) (stack : Stack) (payload : Payload) : List Owned → State
  | [] => ⟨world, stack, .unwind payload⟩
  | owned :: rest => ⟨world, .unwinding rest payload :: stack, .task (.discard owned)⟩

/-- Drop the next continuation of a loop that is going away. -/
def closingNext (world : World) (stack : Stack) (loop discarded : Nat) : State :=
  match world.loopQueue loop with
  | [] =>
      let closed := world.modifyLoop loop fun loop => { loop with alive := false }
      let reported :=
        if discarded = 0 then closed else closed.record (.loopDiscarded discarded)
      .replying reported stack .done
  | continuation :: rest =>
      let popped := world.modifyLoop loop fun loop => { loop with queue := rest }
      ⟨popped, .closing loop (discarded + 1) :: stack,
        .task (.discard (.continuation continuation))⟩

/-- Run the next continuation of a loop that runs until it is idle. -/
def runningNext (world : World) (stack : Stack) (name : Name) (loop ran : Nat) : State :=
  match world.loopQueue loop with
  | [] => .parking world stack name loop (.count ran)
  | continuation :: rest =>
      let popped := world.modifyLoop loop fun loop => { loop with queue := rest }
      ⟨popped, .looping name loop (ran + 1) :: stack, .task (.run continuation)⟩

/-- Give a reply to the innermost frame. -/
def returning (world : World) (stack : Stack) (reply : Reply) : Frame → State
  | .program next => ⟨world, stack, .program (next reply)⟩
  | .answering settled => .replying world stack settled
  | .recording record => .replying (world.record record) stack .done
  | .placing receipt raw deferred =>
      .replying (world.putReceipt receipt deferred raw) stack reply
  | .firing deferred [] => .awakening world stack deferred
  | .firing deferred (continuation :: rest) =>
      ⟨world, .firing deferred rest :: stack, .task (.run continuation)⟩
  | .waking deferred _ =>
      .replying
        (world.modifyDeferred deferred fun deferred => { deferred with lock := .free })
        stack .done
  | .working deferred => .worked world stack deferred reply.asWork
  | .stepping machine => .stepped world stack machine (world.judge machine reply)
  | .releasing machine => ⟨world, stack, .task (.discard (.activation machine))⟩
  | .inspected place number value => .inspectedValue world stack place number value
  | .announced place announcement => .announcedProgress world stack place announcement
  | .launched place number deferred => .launchedWork world stack place number deferred
  | .starting handle machine => .started world stack handle machine
  | .blocking machine pool deferred =>
      .waiting (world.leave pool none) stack deferred (some (pool, machine))
  | .disposing rest => .disposingNext world stack rest
  | .unwinding rest payload => .unwindingNext world stack payload rest
  | .context saved pool => .replying (world.leave pool saved) stack reply
  | .thread saved => .replying { world with thread := saved } stack reply
  | .attempting => .replying world stack reply
  | .worker pool number saved =>
      let rested := world.modifyPool pool (·.modifyWorker number fun worker =>
        { worker with busy := false, context := world.thread.context })
      .replying { rested with thread := saved } stack (.flag true)
  | .turning name loop => .parking world stack name loop (.flag true)
  | .looping name loop ran => .runningNext world stack name loop ran
  | .deciding drive last => .decided world stack drive last reply.asFlag
  | .pumping drive => .deciding world stack drive false
  | .closing loop discarded => .closingNext world stack loop discarded

/-- Take a panic through the innermost frame. -/
def unwindingThrough (world : World) (stack : Stack) (payload : Payload) : Frame → State
  | .program _ => ⟨world, stack, .unwind payload⟩
  | .answering _ => ⟨world, stack, .unwind payload⟩
  | .recording _ => ⟨world, stack, .unwind payload⟩
  | .placing _ _ _ => ⟨world, stack, .unwind payload⟩
  | .firing _ rest => .dropping world stack (rest.map .continuation) payload
  | .waking deferred poisons =>
      let released := world.modifyDeferred deferred fun deferred =>
        { deferred with lock := if poisons then .poisoned else .free }
      ⟨released, stack, .unwind payload⟩
  | .working deferred =>
      .worked world stack deferred (.error (.panicked payload.message))
  | .stepping machine => .stepPanicked world stack machine payload
  | .releasing machine => .dropping world stack [.activation machine] payload
  | .inspected _ _ _ => ⟨world, stack, .unwind payload⟩
  | .announced _ _ => ⟨world, stack, .unwind payload⟩
  | .launched _ _ _ => ⟨world, stack, .unwind payload⟩
  | .starting _ machine => .dropping world stack [.activation machine] payload
  | .blocking machine pool _ =>
      .dropping (world.abort pool) stack [.activation machine] payload
  | .disposing rest => .dropping world stack rest payload
  | .unwinding _ _ => ⟨world, stack, .halted .doublePanic⟩
  | .context _ pool => ⟨world.abort pool, stack, .unwind payload⟩
  | .thread saved => .replying { world with thread := saved } stack (.panicked payload)
  | .attempting => .replying world stack (.panicked payload)
  | .worker pool number saved =>
      let died := world.modifyPool pool (·.modifyWorker number fun worker =>
        { worker with busy := false, alive := false })
      .replying { died with thread := saved } stack (.flag true)
  | .turning name loop => .parkingUnwound world stack name loop payload
  | .looping name loop _ => .parkingUnwound world stack name loop payload
  | .deciding drive _ => .parkingUnwound world stack drive.name drive.loop payload
  | .pumping drive => .parkingUnwound world stack drive.name drive.loop payload
  | .closing loop _ =>
      let closed := world.modifyLoop loop fun loop => { loop with queue := [], alive := false }
      .dropping closed stack ((world.loopQueue loop).map .continuation) payload

end State

end Stepwise
