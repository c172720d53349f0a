import Stepwise.Deferred

/-!
# Event loops

An event loop is a queue of continuations that run when its owner drives it, in
the order in which they were scheduled.  A dropped loop accepts none.
-/

namespace Stepwise

/-- A queue of continuations that run when its owner drives it. -/
structure EventLoop where
  queue : List Continuation
  alive : Bool

namespace EventLoop

/-- An event loop with nothing to run. -/
def fresh : EventLoop := ⟨[], true⟩

/-- Put a continuation behind the others. -/
def push (loop : EventLoop) (continuation : Continuation) : EventLoop :=
  { loop with queue := loop.queue ++ [continuation] }

end EventLoop

end Stepwise
