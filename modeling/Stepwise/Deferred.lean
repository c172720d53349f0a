import Stepwise.Program

/-!
# Deferreds

A deferred is a result that arrives later.  It is pending until its one writer
completes it; the outcome can then be taken once.  Until completion it keeps
the continuations registered on it, in order, and the waker of the latest
poll.

A continuation is code handed over to be run at most once: a callback, the
resumption of a suspended machine, a job, or the wake-up of a blocked thread.
-/

namespace Stepwise

/-- Code handed over to be run at most once. -/
inductive Continuation where
  | callback (body : Program)
  /-- What a suspended machine registers on the deferred it awaits: hand the
  resumption to the machine's scheduler. -/
  | handOver (scheduler : Scheduler) (machine : Nat)
  /-- Resume a suspended machine. -/
  | resumption (machine : Nat)
  /-- Run a work and complete the deferred that tells its outcome. -/
  | job (deferred : Nat) (work : Program)
  /-- Wake a blocked thread. -/
  | signal (waiter : Nat)

/-- Code to run when a polled deferred completes.  Wakers of one identity are
interchangeable. -/
structure Waker where
  identity : Nat
  body : Program

/-- How far a deferred has come. -/
inductive Progress where
  | pending
  | complete (outcome : Outcome)
  | taken

/-- The lock on a deferred's waker, held while the waker is woken.  A waker that
panics leaves it poisoned. -/
inductive WakerLock where
  | free
  | held
  | poisoned
  deriving DecidableEq

/-- A result that arrives later. -/
structure Deferred where
  progress : Progress
  continuations : List Continuation
  waker : Option Waker
  lock : WakerLock

namespace Deferred

/-- A deferred nobody has completed or registered on. -/
def fresh : Deferred := ⟨.pending, [], none, .free⟩

/-- Whether the outcome has been published, taken or not. -/
def isComplete (deferred : Deferred) : Bool :=
  match deferred.progress with
  | .pending => false
  | _ => true

/-- What retrieving the result gives: the outcome, once. -/
def retrieved (deferred : Deferred) : Outcome :=
  match deferred.progress with
  | .pending => .error (.invalid .notReady)
  | .complete outcome => outcome
  | .taken => .error (.invalid .alreadyTaken)

/-- A deferred whose result has been retrieved. -/
def afterRetrieval (deferred : Deferred) : Deferred :=
  match deferred.progress with
  | .complete _ => { deferred with progress := .taken }
  | _ => deferred

/-- Add a continuation behind the others. -/
def register (deferred : Deferred) (continuation : Continuation) : Deferred :=
  { deferred with continuations := deferred.continuations ++ [continuation] }

/-- Publish the outcome and let go of the continuations. -/
def publish (deferred : Deferred) (outcome : Outcome) : Deferred :=
  { deferred with progress := .complete outcome, continuations := [] }

/-- Keep a waker, unless an interchangeable one is kept already. -/
def keepWaker (deferred : Deferred) (waker : Waker) : Deferred :=
  match deferred.waker with
  | some current =>
      if current.identity = waker.identity then deferred
      else { deferred with waker := some waker }
  | none => { deferred with waker := some waker }

end Deferred

end Stepwise
