import Stepwise.Announcement
import Stepwise.Name
import Stepwise.Scheduler

/-!
# Programs

User code is a tree of requests: a program ends with a reply, panics, or makes
a request of the library and goes on with the reply.  Callbacks, works, steps,
observers and wakers are programs too, handed over inside requests, so a
statement about every program is a statement about all code a user can write.

User code keeps what it owns under *names*: receipts and writers of deferreds,
handles of machines, event loops, queues and runtimes.  A program owns nothing
itself, so dropping one that never ran, or leaving one half way by a panic, has
no effect of its own.

A machine is described by the program of each of its steps, as a pipeline of
works, or as the cube-root demonstration.
-/

namespace Stepwise

/-- Why a request was not carried out. -/
inductive Refusal where
  | noSuch (name : String)
  | alreadyAwaiter (name : String)
  | notAwaiter (name : String)
  | busy (name : String)
  deriving DecidableEq, Inhabited

/-- What a request, or a program, answers.

A work answers `outcome (.ok value)` or `failure`; a step answers `suspended` or
an `outcome`; a condition answers a `flag`. -/
inductive Reply where
  | done
  | flag (value : Bool)
  | count (number : Nat)
  | text (content : String)
  | names (names : List String)
  | value (value : Value)
  | outcome (outcome : Outcome)
  | failure (failure : Failure)
  | suspended (resumeAt : Nat) (deferred : Nat)
  | readiness (raw : Bool) (ready : Bool)
  | handle (machine : Nat) (finished : Bool)
  | reference (number : Nat)
  | notYet
  | stopped (workers : List Nat)
  | condition (done : Bool) (calls : Nat)
  | panicked (payload : Payload)
  | refused (refusal : Refusal)
  deriving Inhabited

mutual

/-- User code. -/
inductive Program where
  | ret (reply : Reply)
  | panic (payload : Payload)
  | call (request : Request) (next : Reply → Program)

/-- What user code can ask of the library. -/
inductive Request where
  /-- A fresh deferred: its receipt and its writer under two names. -/
  | pending (receipt : Name) (raw : Bool) (writer : Name)
  /-- A deferred that is complete from the start. -/
  | ready (receipt : Name) (raw : Bool) (outcome : Outcome)
  | complete (writer : Name) (outcome : Outcome)
  | dropWriter (writer : Name)
  /-- Turn a raw receipt into one that can be awaited. -/
  | toAwaiter (receipt : Name)
  | readiness (receipt : Name)
  | isComplete (deferred : Nat)
  | onComplete (receipt : Name) (body : Program)
  | retrieve (receipt : Name)
  | dropReceipt (receipt : Name)
  /-- The reply of a step that awaits a receipt. -/
  | suspend (receipt : Name) (resumeAt : Nat)
  | dispatch (receipt : Name) (raw infallible : Bool) (target : Target) (work : Program)
  | newWaker (waker : Name) (body : Program)
  | poll (receipt waker : Name)
  /-- Block the current thread on a receipt, which is used up; the reply refers
  to the blocked thread. -/
  | wait (receipt : Name)
  /-- What a blocked thread has waited for, if it is awake again. -/
  | collect (waiter : Nat)
  | schedule (scheduler : Scheduler) (body : Program)
  | newLoop (loop : Name)
  | findLoop (loop : Name)
  | turnLoop (loop : Name)
  | runLoop (loop : Name)
  /-- Drive a loop until a condition holds or a deadline has passed.  The clock
  gives the time elapsed after so many turns, so many of them idle. -/
  | runLoopUntil (loop : Name) (deadline : Nat) (clock : Nat → Nat → Nat)
      (condition : Program)
  | dropLoop (loop : Name)
  | newQueue (queue : Name)
  | findQueue (queue : Name)
  | queueLength (queue : Name)
  | runQueued (queue : Name) (index : Nat)
  | dropQueued (queue : Name) (index : Nat)
  | newRuntime (runtime : Name) (workers : Nat) (threadName : String)
  | dropRuntime (runtime : Name)
  | findPool (runtime : Name)
  | isShutdown (runtime : Name)
  | enter (runtime : Name) (body : Program)
  /-- On a new thread, start a machine inside a runtime and block until it has
  finished; the reply refers to the blocked thread, which uses the runtime and
  owns the handle meanwhile. -/
  | run (thread : String) (runtime : Name) (machine : Machine)
  | runtimes
  | queuedJobs (runtime : Name)
  /-- Let an idle worker of a runtime run the job at the front of its queue. -/
  | work (runtime : Name)
  | start (handle : Name) (machine : Machine) (scheduler : Scheduler)
      (observer : Outcome → Program)
  /-- Start a machine whose outcome completes a deferred.  Its receipt is given
  out before the start, or after it. -/
  | startAwaitable (handle : Name) (machine : Machine) (scheduler : Scheduler)
      (receipt : Name) (early : Bool)
  | cancel (handle : Name)
  | handle (handle : Name)
  | isFinished (machine : Nat)
  | dropHandle (handle : Name)
  /-- Keep a machine without starting it. -/
  | newMachine (name : Name) (machine : Machine)
  | stepMachine (machine : Name) (position : Position)
  | dropMachine (machine : Name)
  /-- Set a region of memory aside; the reply is its number. -/
  | newRegion
  | load (cell : Name)
  | store (cell : Name) (content : Outcome)
  | note (entry : Value)
  | record (record : Record)
  | threadName
  /-- Run a program on a new thread and join it. -/
  | thread (name : String) (body : Program)
  /-- Run a program, catching its panic. -/
  | attempt (body : Program)

/-- A step-driven machine before it is started. -/
inductive Machine where
  | custom (step : Position → Program)
  /-- A seed passed through stages, each of them a work; the hook sees each value
  between stages. -/
  | pipeline (seed : Value) (stages : List (Value → Program)) (dispatcher : Dispatcher)
      (inspect : Nat → Value → Program)
  /-- A number that is cubed, and the square root of its cube. -/
  | cubeRoot (input : Float) (cube root : Float → Program) (dispatcher : Dispatcher)
      (announce : Announcement → Program)

end

instance : Inhabited Program := ⟨.ret .done⟩

namespace Reply

/-- What a work's reply says about its value. -/
def asWork : Reply → Except Failure Value
  | .outcome (.ok result) => .ok result
  | .outcome (.error error) => .error (.error error)
  | .failure cause => .error cause
  | .value result => .ok result
  | _ => .ok .null

/-- Whether a condition's reply says that it holds. -/
def asFlag : Reply → Bool
  | .flag holds => holds
  | _ => false

end Reply

/-- How a step ended. -/
inductive StepResult where
  | await (resumeAt : Nat) (deferred : Nat)
  | complete (value : Value)
  | fail (error : Error)

/-- What a step's reply says. -/
def Reply.asStep : Reply → StepResult
  | .suspended resumeAt deferred => .await resumeAt deferred
  | .outcome (.ok result) => .complete result
  | .outcome (.error error) => .fail error
  | .failure cause => .fail (.work cause)
  | .value result => .complete result
  | _ => .complete .null

end Stepwise
