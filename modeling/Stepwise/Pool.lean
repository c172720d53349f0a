import Stepwise.Deferred

/-!
# Worker pools

A pool is a queue of jobs and the workers that take them, oldest job first.
Once shut down it accepts no job and starts none.  A worker keeps the context
of its thread from one job to the next, and dies of a panic that leaves a job.
-/

namespace Stepwise

/-- A thread of a pool. -/
structure Worker where
  alive : Bool
  busy : Bool
  context : Option Nat

/-- A queue of jobs and the workers that take them. -/
structure Pool where
  jobs : List Continuation
  shutdown : Bool
  workers : List Worker
  threadName : String
  /-- How many calls currently run inside the pool's runtime. -/
  entered : Nat

namespace Pool

/-- A pool whose workers see the pool itself as their context. -/
def fresh (number workers : Nat) (threadName : String) : Pool :=
  ⟨[], false, List.replicate workers ⟨true, false, some number⟩, threadName, 0⟩

/-- Put a job behind the others. -/
def push (pool : Pool) (job : Continuation) : Pool :=
  { pool with jobs := pool.jobs ++ [job] }

/-- The lowest-numbered worker that could take a job. -/
def idleWorker? (pool : Pool) : Option Nat :=
  pool.workers.findIdx? fun worker => worker.alive && !worker.busy

/-- Whether some worker is in the middle of a job. -/
def isBusy (pool : Pool) : Bool := pool.workers.any (·.busy)

/-- The numbers of the living workers. -/
def living (pool : Pool) : List Nat :=
  (List.range pool.workers.length).filter fun number =>
    (pool.workers[number]?.map (·.alive)).getD false

/-- Change one worker. -/
def modifyWorker (pool : Pool) (number : Nat) (change : Worker → Worker) : Pool :=
  { pool with workers := pool.workers.modify number change }

/-- The name of a worker's thread. -/
def workerName (pool : Pool) (number : Nat) : String := s!"{pool.threadName}-{number}"

/-- A pool that has stopped its workers and given up its jobs. -/
def close (pool : Pool) : Pool :=
  { pool with
    jobs := [], shutdown := true
    workers := pool.workers.map fun worker => { worker with alive := false } }

end Pool

end Stepwise
