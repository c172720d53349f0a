import Stepwise.World

/-!
# Tasks, frames and states of an execution

A run executes one small step after another.  Its *control* says what comes
next: user code, a task of the library, a reply on its way to whoever waits for
it, or a panic on its way up.  Its *stack* holds one frame for everything that
waits: the rest of a program, a batch of continuations being fired, the capture
of a work or step, a call inside a runtime.  Whatever is owned during a call is
owned by a frame or by the task in control, and a panic drops it on its way up.

Threads take turns, one at a time, so one stack serves them all; a frame marks
where another thread begins.
-/

namespace Stepwise

/-- Something that has an effect when it is dropped. -/
inductive Owned where
  | continuation (continuation : Continuation)
  | writer (deferred : Nat)
  /-- One share in a started machine. -/
  | activation (machine : Nat)
  | loop (loop : Nat)
  | runtime (pool : Nat)

/-- What the library itself has to do next. -/
inductive Task where
  | run (continuation : Continuation)
  | discard (owned : Owned)
  | publish (deferred : Nat) (outcome : Outcome)
  | schedule (scheduler : Scheduler) (continuation : Continuation)
  /-- Resume a machine, which owns a share in it. -/
  | resume (machine : Nat)
  /-- Call the next step of a machine that is being resumed. -/
  | advance (machine : Nat)
  /-- Run the step of a body at a position. -/
  | step (place : Place) (position : Position)
  | finish (machine : Nat) (outcome : Outcome)

/-- An event loop being driven until a condition holds: how often the condition
was called, how many turns were made, and how many of them were idle. -/
structure Drive where
  name : Name
  loop : Nat
  deadline : Nat
  clock : Nat → Nat → Nat
  condition : Program
  calls : Nat
  turns : Nat
  idle : Nat

/-- Something that waits for a reply. -/
inductive Frame where
  /-- The rest of a program. -/
  | program (next : Reply → Program)
  /-- A call whose reply is settled. -/
  | answering (reply : Reply)
  /-- A call that ends with a record. -/
  | recording (record : Record)
  /-- A call that gives out a receipt when it ends. -/
  | placing (receipt : Name) (raw : Bool) (deferred : Nat)
  /-- The rest of a batch of continuations, owned. -/
  | firing (deferred : Nat) (rest : List Continuation)
  /-- A waker being woken under its lock. -/
  | waking (deferred : Nat) (poisons : Bool)
  /-- A work being run; owns the writer of its deferred. -/
  | working (deferred : Nat)
  /-- A step being run; owns the resumption's share in the machine. -/
  | stepping (machine : Nat)
  /-- An observer being told; owns the resumption's share in the machine. -/
  | releasing (machine : Nat)
  /-- A hook of a pipeline that sees a value between stages. -/
  | inspected (place : Place) (number : Nat) (value : Value)
  /-- A hook of the demonstration that hears an announcement. -/
  | announced (place : Place) (announcement : Announcement)
  /-- A work being dispatched that a step is about to await. -/
  | launched (place : Place) (number : Nat) (deferred : Nat)
  /-- A machine being started; owns the share that becomes the handle's. -/
  | starting (handle : Name) (machine : Nat)
  /-- A machine being started inside a runtime by a thread that is going to wait
  for it; owns the share that becomes the thread's. -/
  | blocking (machine pool deferred : Nat)
  /-- Things being dropped, one after the other. -/
  | disposing (rest : List Owned)
  /-- Things being dropped by a panic on its way up. -/
  | unwinding (rest : List Owned) (payload : Payload)
  /-- A call inside a runtime, with the context to go back to. -/
  | context (saved : Option Nat) (pool : Nat)
  /-- The start of a thread, with the state of the one that joins it. -/
  | thread (saved : ThreadState)
  /-- A catch. -/
  | attempting
  /-- A job on a worker, with the state of the thread that gave way. -/
  | worker (pool number : Nat) (saved : ThreadState)
  /-- A loop in the middle of a single turn. -/
  | turning (name : Name) (loop : Nat)
  /-- A loop being run until it is idle. -/
  | looping (name : Name) (loop : Nat) (ran : Nat)
  /-- A condition being called, for the last time or not. -/
  | deciding (drive : Drive) (last : Bool)
  /-- A turn between two calls of a condition. -/
  | pumping (drive : Drive)
  /-- A loop being dropped, so many continuations so far. -/
  | closing (loop : Nat) (discarded : Nat)

/-- Frames, innermost first. -/
abbrev Stack := List Frame

/-- Why a run cannot go on. -/
inductive Halt where
  /-- A panic while another was dropping what it passed. -/
  | doublePanic
  /-- A thread waiting for itself. -/
  | deadlock
  deriving DecidableEq

/-- What an execution does next. -/
inductive Control where
  | program (program : Program)
  | task (task : Task)
  | reply (reply : Reply)
  | unwind (payload : Payload)
  | halted (reason : Halt)

/-- A moment of a run. -/
structure State where
  world : World
  stack : Stack
  control : Control

/-- Whether the current thread is already on its way up from a panic. -/
def Stack.isPanicking : Stack → Bool
  | [] => false
  | .unwinding _ _ :: _ => true
  | .thread _ :: _ => false
  | .worker _ _ _ :: _ => false
  | _ :: rest => Stack.isPanicking rest

namespace State

/-- A call that ends with a reply. -/
def replying (world : World) (stack : Stack) (reply : Reply) : State :=
  ⟨world, stack, .reply reply⟩

/-- A call that is refused. -/
def refusing (world : World) (stack : Stack) (refusal : Refusal) : State :=
  ⟨world, stack, .reply (.refused refusal)⟩

/-- A call that panics with a message. -/
def panicking (world : World) (stack : Stack) (message : String) : State :=
  ⟨world, stack, .unwind (.text message)⟩

/-- A call that comes down to a task, and then ends with a reply. -/
def performing (world : World) (stack : Stack) (task : Task) (reply : Reply) : State :=
  ⟨world, .answering reply :: stack, .task task⟩

/-- A call that drops things, and then ends with a reply. -/
def disposing (world : World) (stack : Stack) (displaced : List Owned) (reply : Reply) :
    State :=
  match displaced with
  | [] => .replying world stack reply
  | _ => ⟨world, .disposing displaced :: .answering reply :: stack, .reply .done⟩

/-- A panic that drops things on its way up. -/
def dropping (world : World) (stack : Stack) (owned : List Owned) (payload : Payload) :
    State :=
  match owned with
  | [] => ⟨world, stack, .unwind payload⟩
  | _ => ⟨world, .unwinding owned payload :: stack, .reply .done⟩

end State

end Stepwise
