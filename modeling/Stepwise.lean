import Stepwise.Main
import Stepwise.Scenario.Run
import Stepwise.Proofs.Total
import Stepwise.Proofs.Resumption
import Stepwise.Proofs.Outcome
import Stepwise.Proofs.Quiescence
import Stepwise.Proofs.Fold
import Stepwise.Proofs.Protocol
import Stepwise.Proofs.Blocked
import Stepwise.Proofs.Batch
import Stepwise.Proofs.Conduct
import Stepwise.Proofs.FastPath
import Stepwise.Proofs.Pools.Dispatch
import Stepwise.Proofs.Pools.Quiet
import Stepwise.Proofs.Context
import Stepwise.Proofs.Dispatched
import Stepwise.Proofs.Pools.Devoted
import Stepwise.Proofs.Pools.Guard
import Stepwise.Proofs.Shutdown
import Stepwise.Proofs.Compliance
import Stepwise.Proofs.Continuations
import Stepwise.Proofs.Waits
import Stepwise.Proofs.Cancellation
import Stepwise.Proofs.Sequence
import Stepwise.Proofs.Alarms.Basic
import Stepwise.Proofs.Alarms.Steps
import Stepwise.Proofs.Alarms.Locks
import Stepwise.Proofs.Wakeups
import Stepwise.Proofs.Retrieval
import Stepwise.Proofs.Survival
import Stepwise.Proofs.Handovers
import Stepwise.Proofs.Tower
import Stepwise.Proofs.Places
import Stepwise.Proofs.Losses
import Stepwise.Proofs.Crew
import Stepwise.Proofs.LoopQueue
import Stepwise.Proofs.Loops.Interleaved
import Stepwise.Proofs.Loops.Moves
import Stepwise.Proofs.LoopCondition
