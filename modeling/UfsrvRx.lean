import UfsrvRx.Cancellation.Unregister
import UfsrvRx.Cancellation.Links
import UfsrvRx.Scheduler.Ledger
import UfsrvRx.Scheduler.Work
import UfsrvRx.Coroutine.Unstarted
import UfsrvRx.Coroutine.Worker
import UfsrvRx.Pool.Names
import UfsrvRx.Pool.Describe
import UfsrvRx.Pool.Lifecycle
import UfsrvRx.Pool.Slab
import UfsrvRx.Pool.RoundRobin
import UfsrvRx.Pool.Running
import UfsrvRx.Future.Delivery
import UfsrvRx.Future.Attachment
import UfsrvRx.Future.Handshake
import UfsrvRx.Future.Atomicity
import UfsrvRx.Waiter.Contract
import UfsrvRx.Waiter.Placement
import UfsrvRx.Waiter.Abandoned
import UfsrvRx.Waiter.Atomicity
import UfsrvRx.Combinator.All
import UfsrvRx.Combinator.Any
import UfsrvRx.Combinator.Zip
import UfsrvRx.Combinator.ZipFailure
import UfsrvRx.Operator.References
import UfsrvRx.Operator.Failure
import UfsrvRx.Operator.Handover
import UfsrvRx.Operator.Rollback
import UfsrvRx.Operator.MoveOnce
import UfsrvRx.Operator.FailedClaim
import UfsrvRx.Operator.Abort
import UfsrvRx.Operator.Meaning
import UfsrvRx.Operator.Work
import UfsrvRx.Operator.Leaks
import UfsrvRx.Operator.Typing
import UfsrvRx.Operator.Once
