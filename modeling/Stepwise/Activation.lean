import Stepwise.Body

/-!
# Activations

An activation is a started machine.  It is idle while suspended, running while
a resumption works on it, and finished once its observer has been given the
outcome.  It lives as long as something owns it: a handle, a resumption that is
still to run, or a resumption that is running.
-/

namespace Stepwise

/-- Whether a started machine is suspended, being resumed, or done. -/
inductive Status where
  | idle
  | running
  | finished
  deriving DecidableEq

/-- Who is told the outcome of a machine: code, or a deferred. -/
inductive Observer where
  | callback (body : Outcome → Program)
  | writer (deferred : Nat)

/-- A started machine. -/
structure Activation where
  status : Status
  cancelled : Bool
  position : Position
  pending : Option Nat
  observer : Option Observer
  body : Body
  scheduler : Scheduler
  owners : Nat

namespace Activation

/-- A machine about to be resumed for the first time, owned by its starter and
by that resumption. -/
def fresh (body : Body) (scheduler : Scheduler) (observer : Observer) : Activation :=
  ⟨.idle, false, .notStarted, none, some observer, body, scheduler, 2⟩

/-- Whether the outcome has been delivered. -/
def isFinished (activation : Activation) : Bool := activation.status == .finished

/-- A machine that awaits a deferred. -/
def suspend (activation : Activation) (deferred : Nat) : Activation :=
  { activation with status := .idle, pending := some deferred }

/-- A machine whose outcome is settled. -/
def finish (activation : Activation) : Activation :=
  { activation with
    status := .finished, position := .finished, pending := none, observer := none }

end Activation

end Stepwise
