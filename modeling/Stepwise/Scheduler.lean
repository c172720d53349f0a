/-!
# Schedulers and dispatchers

A scheduler is where continuations are sent, such as the resumptions of a
machine; a target is where work is run.  A dispatcher picks the target of each
work of a machine.
-/

namespace Stepwise

/-- Where a machine's resumptions, and other continuations, are sent. -/
inductive Scheduler where
  | inline
  | pool (pool : Nat)
  | loop (loop : Nat)
  | queue (queue : Nat)
  | discard
  deriving DecidableEq, Inhabited

/-- Where work runs: at once, on a pool, or on the pool of the current context. -/
inductive Target where
  | immediate
  | pool (pool : Nat)
  | context
  deriving DecidableEq, Inhabited

/-- Where the works of a machine run: each by how many were dispatched before it. -/
structure Dispatcher where
  target : Nat → Target
  deriving Inhabited

/-- All works run in one place. -/
def Dispatcher.always (target : Target) : Dispatcher := ⟨fun _ => target⟩

/-- Works run on a pool or at once, as planned; at once when the plan is used up. -/
def Dispatcher.planned (pool : Nat) (plan : List Bool) : Dispatcher :=
  ⟨fun dispatched => if plan.getD dispatched false then .pool pool else .immediate⟩

end Stepwise
