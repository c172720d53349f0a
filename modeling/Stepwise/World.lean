import Stepwise.Activation
import Stepwise.EventLoop
import Stepwise.Pool
import Stepwise.Store
import Stepwise.Table

/-!
# The world of a run

The world holds everything a run has made: deferreds, started machines, pools,
event loops, queues of custom schedulers and blocked threads, each under a
number; what user code owns of them, under names; and the history of notes and
diagnostic records, newest first.
-/

namespace Stepwise

/-- Something that happened: a note of user code, or a record of the library. -/
inductive Event where
  | note (entry : Value)
  | record (record : Record)

/-- What a thread knows of itself: its name and its current runtime context. -/
structure ThreadState where
  name : String
  context : Option Nat

/-- A receipt for a deferred; a raw one cannot be awaited yet. -/
structure Receipt where
  deferred : Nat
  raw : Bool

/-- Whether a blocked thread still sleeps, has been woken, or has lost what
would have woken it. -/
inductive Signal where
  | waiting
  | woken
  | lost
  deriving DecidableEq

/-- A thread blocked on a deferred.  One that runs a machine uses the runtime of a
pool and owns a share in the machine meanwhile. -/
structure Waiter where
  deferred : Nat
  signal : Signal
  run : Option (Nat × Nat)

/-- The custom scheduler's list: each continuation it was ever handed, until it
is taken out. -/
abbrev ManualQueue := List (Option Continuation)

/-- Everything a run has made. -/
structure World where
  deferreds : Store Deferred
  activations : Store Activation
  kept : Store Body
  pools : Store Pool
  loops : Store EventLoop
  queues : Store ManualQueue
  waiters : Store Waiter
  /-- The next unused region of memory; also numbers wakers. -/
  fresh : Nat
  thread : ThreadState
  receipts : Table Receipt
  /-- Every deferred that user code has been given a receipt for. -/
  given : List Nat
  writers : Table Nat
  handles : Table Nat
  machines : Table Nat
  wakers : Table Waker
  runtimes : Table Nat
  spawners : Table Nat
  ownedLoops : Table Nat
  loopSchedulers : Table Nat
  queueNames : Table Nat
  memory : Table Outcome
  history : List Event

namespace World

/-- A world in which nothing has happened, on the main thread. -/
def initial : World where
  deferreds := .empty
  activations := .empty
  kept := .empty
  pools := .empty
  loops := .empty
  queues := .empty
  waiters := .empty
  fresh := 1
  thread := ⟨"main", none⟩
  receipts := .empty
  given := []
  writers := .empty
  handles := .empty
  machines := .empty
  wakers := .empty
  runtimes := .empty
  spawners := .empty
  ownedLoops := .empty
  loopSchedulers := .empty
  queueNames := .empty
  memory := .empty
  history := []

instance : Inhabited World := ⟨initial⟩

/-- Add a note of user code to the history. -/
def note (world : World) (entry : Value) : World :=
  { world with history := .note entry :: world.history }

/-- Add a diagnostic record to the history. -/
def record (world : World) (record : Record) : World :=
  { world with history := .record record :: world.history }

/-- Change a deferred. -/
def modifyDeferred (world : World) (deferred : Nat) (change : Deferred → Deferred) : World :=
  { world with deferreds := world.deferreds.modify deferred change }

/-- Change a started machine. -/
def modifyActivation (world : World) (machine : Nat) (change : Activation → Activation) :
    World :=
  { world with activations := world.activations.modify machine change }

/-- The body at a place. -/
def body? (world : World) : Place → Option Body
  | .started machine => (world.activations.get? machine).map (·.body)
  | .kept number => world.kept.get? number

/-- Change the body at a place. -/
def modifyBody (world : World) (place : Place) (change : Body → Body) : World :=
  match place with
  | .started machine =>
      world.modifyActivation machine fun activation =>
        { activation with body := change activation.body }
  | .kept number => { world with kept := world.kept.modify number change }

/-- Change a pool. -/
def modifyPool (world : World) (pool : Nat) (change : Pool → Pool) : World :=
  { world with pools := world.pools.modify pool change }

/-- Change an event loop. -/
def modifyLoop (world : World) (loop : Nat) (change : EventLoop → EventLoop) : World :=
  { world with loops := world.loops.modify loop change }

/-- Change a custom scheduler's list. -/
def modifyQueue (world : World) (queue : Nat) (change : ManualQueue → ManualQueue) : World :=
  { world with queues := world.queues.modify queue change }

/-- Change a blocked thread. -/
def modifyWaiter (world : World) (waiter : Nat) (change : Waiter → Waiter) : World :=
  { world with waiters := world.waiters.modify waiter change }

/-- Whether a deferred is complete.  So is a number that no deferred has: nothing
ever waits for it. -/
def isComplete (world : World) (deferred : Nat) : Bool :=
  ((world.deferreds.get? deferred).map (·.isComplete)).getD true

/-- Whether a started machine is finished. -/
def isFinished (world : World) (machine : Nat) : Bool :=
  ((world.activations.get? machine).map (·.isFinished)).getD false

/-- Whether a pool still accepts jobs. -/
def acceptsJobs (world : World) (pool : Nat) : Bool :=
  ((world.pools.get? pool).map fun pool => !pool.shutdown).getD false

/-- Whether an event loop still accepts continuations. -/
def isLoopAlive (world : World) (loop : Nat) : Bool :=
  ((world.loops.get? loop).map (·.alive)).getD false

/-- Whether there is a custom scheduler's list of this number. -/
def hasQueue (world : World) (queue : Nat) : Bool := decide (queue < world.queues.size)

/-- The continuations queued on an event loop. -/
def loopQueue (world : World) (loop : Nat) : List Continuation :=
  ((world.loops.get? loop).map (·.queue)).getD []

/-- Keep a receipt under a name. -/
def putReceipt (world : World) (name : Name) (deferred : Nat) (raw : Bool) : World :=
  { world with
    receipts := world.receipts.insert name ⟨deferred, raw⟩
    given := deferred :: world.given }

/-- Whether the step of a machine can await a deferred: user code may have a receipt for
it, or the step has launched its work. -/
def mayAwait (world : World) (machine deferred : Nat) : Bool :=
  world.given.contains deferred ||
    ((world.body? (.started machine)).map (·.awaited.contains deferred)).getD false

/-- Whether a thread blocked inside a pool's runtime still sleeps. -/
def hasBlockedRun (world : World) (pool : Nat) : Bool :=
  world.waiters.values.any fun waiter =>
    waiter.signal == .waiting && (waiter.run.map (·.1)) == some pool

/-- Whether a pool's runtime is in use by a call inside it or a blocked run. -/
def isInUse (world : World) (pool : Nat) : Bool :=
  decide (0 < ((world.pools.get? pool).map (·.entered)).getD 0) || world.hasBlockedRun pool

end World

end Stepwise
