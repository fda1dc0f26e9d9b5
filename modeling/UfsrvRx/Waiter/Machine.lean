import UfsrvRx.Cancellation.Contract
import UfsrvRx.Future.Result

namespace UfsrvRx
namespace Waiter

/-!
# Waiting for futures

The model of `UfsrvFutureGet` and `UfsrvFutureGetWithCancellation` on coroutines
and on plain threads, with everything that touches a waiter: the drain of
`sFutureComplete`, the two cancel callbacks and their release hook, the resume jobs
of `ufsrv_coroutine.c` with the workers that execute them, and the last
`UfsrvFutureRelease`, which takes the waiters that are still on the stack.  Tokens
and registrations are those of the registry, a component of the state; the
registration of a wait has the number of the wait.

There are any number of futures, tokens, waits, coroutines, schedulers and
completing calls.  Every access to a shared cell is one step.  A plain thread is
represented by its waits, one after another or at the same time as those of other
threads.  Allocations succeed and schedulers accept every job, so a call of
`UfsrvCoroutineSubmitResume` appends to the queue of its scheduler.  The stack of
waiters behaves like the stack of continuations.
-/

open Future (Result)

abbrev TokenId := Cancellation.TokenId

abbrev CallId := Cancellation.CallId

/-- A wait is named by its call of `UfsrvFutureGet`. -/
abbrev WaitId := Cancellation.NodeId

abbrev FutureId := Nat

abbrev CoroutineId := Nat

abbrev SchedulerId := Nat

/-- Who waits: the fields `coroutine` and `scheduler` of the waiter, both NULL for
a plain thread. -/
inductive Agent
  | coroutine (coroutine : CoroutineId) (scheduler : SchedulerId)
  | thread
deriving DecidableEq, Repr

/-- Program points of a wait.  A coroutine is parked in `UfsrvCoroutineYield`, a
thread in `read`. -/
inductive WaitFrame
  | idle
  | checkingToken
  | checkingState
  | allocated
  | retaining
  | registering
  | parking
  | parked
  | closing
  | unregistering
  | awaiting
  | releasing
  | rechecking
  | reading
  | returned (result : Result)
deriving DecidableEq, Repr

/-- Program points of `sResumeWaiterOnCancel` and `sWakeBlockingWaiterOnCancel`. -/
inductive CallbackFrame
  | idle
  | entered
  | waking
  | done
deriving DecidableEq, Repr

/-- A wait with its `struct UfsrvWaiter`.  The number of wake-ups, of writes to a
closed descriptor and of frees is history. -/
structure Wait where
  agent : Agent
  future : FutureId
  token : Option TokenId
  frame : WaitFrame
  callback : CallbackFrame
  allocated : Bool
  refcount : Int
  claimed : Bool
  blockFd : Bool
  cancelHandle : Bool
  fdOpen : Bool
  counter : Nat
  wakes : Nat
  lateWrites : Nat
  freed : Nat
deriving DecidableEq, Repr

/-- Program points of the drain in the last `UfsrvFutureRelease`. -/
inductive ReleaseFrame
  | idle
  | draining (rest : List WaitId)
  | dropping (wait : WaitId) (rest : List WaitId)
  | returned
deriving DecidableEq, Repr

/-- The part of `struct UfsrvFuture` that waits and completions use. -/
structure FutureCell where
  isCompleted : Bool
  isReady : Bool
  result : Result
  waiters : List WaitId
  closed : Bool
  release : ReleaseFrame
deriving DecidableEq, Repr

/-- Program points of `sFutureComplete` up to the end of `sDrainWaiters`. -/
inductive CompleteFrame
  | idle
  | entered (future : FutureId) (result : Result)
  | writing (future : FutureId) (result : Result)
  | storing (future : FutureId)
  | closing (future : FutureId)
  | draining (future : FutureId) (rest : List WaitId)
  | waking (future : FutureId) (wait : WaitId) (rest : List WaitId)
  | releasing (future : FutureId) (wait : WaitId) (rest : List WaitId)
  | returned (won : Bool)
deriving DecidableEq, Repr

/-- What a coroutine is doing. -/
inductive Status
  | absent
  | spawned
  | running (wait : Option WaitId)
  | suspended (wait : WaitId)
  | exited
deriving DecidableEq, Repr

structure Coroutine where
  scheduler : SchedulerId
  status : Status
deriving DecidableEq, Repr

/-- The jobs of `UfsrvCoroutineSpawn` and `UfsrvCoroutineSubmitResume`.  The wait
for which a resume job was submitted is history. -/
inductive Job
  | spawn (coroutine : CoroutineId)
  | resume (coroutine : CoroutineId) (wait : WaitId)
deriving DecidableEq, Repr

/-- A scheduler: its queue and the coroutine that the job on its worker has resumed. -/
structure Scheduler where
  queue : List Job
  worker : Option CoroutineId
deriving DecidableEq, Repr

/-- The shared memory and every call in progress. -/
structure State where
  registry : Cancellation.State
  futures : FutureId -> FutureCell
  waits : WaitId -> Wait
  complete : CallId -> CompleteFrame
  coroutines : CoroutineId -> Coroutine
  schedulers : SchedulerId -> Scheduler

inductive Event
  | registry (event : Cancellation.Event)
  | waitStart (wait : WaitId) (agent : Agent) (future : FutureId) (token : Option TokenId)
  | waitCheckToken (wait : WaitId) (token : TokenId)
  | waitCheckState (wait : WaitId)
  | waitPush (wait : WaitId)
  | waitRetain (wait : WaitId)
  | waitRegistered (wait : WaitId)
  | waitPark (wait : WaitId)
  | waitRead (wait : WaitId)
  | waitClose (wait : WaitId)
  | waitUnregister (wait : WaitId)
  | waitUnregistered (wait : WaitId) (won : Bool)
  | waitRelease (wait : WaitId)
  | waitRecheck (wait : WaitId) (token : TokenId)
  | waitReturn (wait : WaitId)
  | callbackClaim (wait : WaitId)
  | callbackWake (wait : WaitId)
  | completeEnter (call : CallId) (future : FutureId) (result : Result)
  | completeExchange (call : CallId) (future : FutureId) (result : Result)
  | completeWrite (call : CallId) (future : FutureId) (result : Result)
  | completeReady (call : CallId) (future : FutureId)
  | completeClose (call : CallId) (future : FutureId)
  | completeClaim (call : CallId) (future : FutureId) (wait : WaitId) (rest : List WaitId)
  | completeWake (call : CallId) (future : FutureId) (wait : WaitId) (rest : List WaitId)
  | completeRelease (call : CallId) (future : FutureId) (wait : WaitId) (rest : List WaitId)
  | completeReturn (call : CallId) (future : FutureId)
  | releaseSteal (future : FutureId)
  | releaseClose (future : FutureId) (wait : WaitId) (rest : List WaitId)
  | releaseDrop (future : FutureId) (wait : WaitId) (rest : List WaitId)
  | releaseReturn (future : FutureId)
  | spawn (coroutine : CoroutineId) (scheduler : SchedulerId)
  | workerSpawn (scheduler : SchedulerId) (coroutine : CoroutineId) (rest : List Job)
  | workerResume (scheduler : SchedulerId) (coroutine : CoroutineId) (wait : WaitId)
      (rest : List Job)
  | coroutineExit (coroutine : CoroutineId)
deriving DecidableEq, Repr

namespace WaitFrame

/-- The call has been made and has not returned. -/
def inFlight : WaitFrame -> Bool
  | idle | returned _ => false
  | checkingToken | checkingState | allocated | retaining | registering | parking | parked
  | closing | unregistering | awaiting | releasing | rechecking | reading => true

end WaitFrame

namespace CompleteFrame

/-- The future of a call that has been made and has not returned. -/
def inFlight : CompleteFrame -> Option FutureId
  | entered future _ | writing future _ | storing future | closing future | draining future _
  | waking future _ _ | releasing future _ _ => some future
  | idle | returned _ => none

end CompleteFrame

namespace Wait

/-- The registration with the number of the wait is, or will be, its own. -/
def Owned (wait : Wait) : Prop :=
  wait.frame ≠ .idle ∧ wait.token ≠ none

instance (wait : Wait) : Decidable wait.Owned :=
  inferInstanceAs (Decidable (_ ∧ _))

/-- `lockless_treiber_stack_release`, and `free` if this was the last reference. -/
def drop (wait : Wait) : Wait :=
  { wait with
    refcount := wait.refcount - 1
    freed := wait.freed + if wait.refcount = 1 then 1 else 0 }

/-- `write` to the descriptor of a blocked thread. -/
def write (wait : Wait) : Wait :=
  { wait with
    counter := wait.counter + 1
    wakes := wait.wakes + 1
    lateWrites := wait.lateWrites + if wait.fdOpen then 0 else 1 }

/-- Where a wait goes on when it was woken and has no descriptor to close. -/
def awake (wait : Wait) : WaitFrame :=
  if wait.token = none then .releasing else .unregistering

end Wait

/-- The registration whose release hook the step calls. -/
def hookOf : Cancellation.Event -> Option WaitId
  | .hookCall node => some node
  | _ => none

namespace State

def setWait (s : State) (wait : WaitId) (entry : Wait) : State :=
  { s with waits := Function.update s.waits wait entry }

def setFrame (s : State) (wait : WaitId) (frame : WaitFrame) : State :=
  s.setWait wait { s.waits wait with frame := frame }

def setFuture (s : State) (future : FutureId) (cell : FutureCell) : State :=
  { s with futures := Function.update s.futures future cell }

def setComplete (s : State) (call : CallId) (frame : CompleteFrame) : State :=
  { s with complete := Function.update s.complete call frame }

def setCoroutine (s : State) (coroutine : CoroutineId) (entry : Coroutine) : State :=
  { s with coroutines := Function.update s.coroutines coroutine entry }

def setScheduler (s : State) (scheduler : SchedulerId) (entry : Scheduler) : State :=
  { s with schedulers := Function.update s.schedulers scheduler entry }

/-- What becomes of the agent of a wait: a coroutine changes its status, a thread
has none. -/
def setStatus (s : State) (agent : Agent) (status : Status) : State :=
  match agent with
  | .coroutine coroutine _ =>
      s.setCoroutine coroutine { s.coroutines coroutine with status := status }
  | .thread => s

/-- `UfsrvCoroutineSubmitResume`. -/
def submitResume (s : State) (scheduler : SchedulerId) (coroutine : CoroutineId)
    (wait : WaitId) : State :=
  let entry := s.schedulers scheduler
  (s.setScheduler scheduler
    { entry with queue := entry.queue ++ [.resume coroutine wait] }).setWait
    wait { s.waits wait with wakes := (s.waits wait).wakes + 1 }

/-- The drain wakes a waiter it has claimed. -/
def drainWake (s : State) (wait : WaitId) : State :=
  match (s.waits wait).agent with
  | .coroutine coroutine scheduler => s.submitResume scheduler coroutine wait
  | .thread => if (s.waits wait).blockFd then s.setWait wait (s.waits wait).write else s

/-- The cancel callback wakes a waiter it has claimed. -/
def callbackWake (s : State) (wait : WaitId) : State :=
  match (s.waits wait).agent with
  | .coroutine coroutine scheduler => s.submitResume scheduler coroutine wait
  | .thread => s.setWait wait (s.waits wait).write

/-- The cancel callback of a wait is entered when it is called, and
`sWaiterCancelRelease` drops the cancel reference. -/
def react (s : State) (event : Cancellation.Event) : State :=
  match event.starts, hookOf event with
  | some wait, _ =>
      if (s.waits wait).Owned then s.setWait wait { s.waits wait with callback := .entered } else s
  | none, some wait => if (s.waits wait).Owned then s.setWait wait (s.waits wait).drop else s
  | none, none => s

end State

/-- Which steps of the registry are left to others, and in which order the waits
take theirs: a wait makes its own registration, which does not fail, and consumes
its handle itself; a callback returns when it is done; and a client keeps its
reference to a token while it waits with it. -/
def admits (s : State) : Cancellation.Event -> Prop
  | .registerRefused node _ | .unregisterLock node => ¬ (s.waits node).Owned
  | .registerAlloc node token releaseContext =>
      (s.waits node).Owned ->
        (s.waits node).frame = .registering ∧ (s.waits node).token = some token ∧
          releaseContext = true
  | .registerCallReturned node | .cancelCallReturned _ _ node _ =>
      (s.waits node).Owned -> (s.waits node).callback = .done
  | .destroyRelease _ token => 1 < (s.registry.tokens token).clientRefs ∨
      forall wait, (s.waits wait).token = some token -> (s.waits wait).frame.inFlight = false
  | _ => True

/-- Before which step each event stands.  Whoever waits on a future or completes it
holds a reference, so the last `UfsrvFutureRelease` comes after all of them. -/
def enabled (s : State) : Event -> Prop
  | .registry event => Cancellation.enabled s.registry event ∧ admits s event
  | .waitStart wait agent future token =>
      (s.waits wait).frame = .idle ∧ (s.futures future).release = .idle ∧
      (forall coroutine scheduler, agent = .coroutine coroutine scheduler ->
        s.coroutines coroutine = ⟨scheduler, .running none⟩) ∧
      forall t, token = some t -> (s.registry.registrations wait).register = .idle ∧
        0 < (s.registry.tokens t).clientRefs
  | .waitCheckToken wait token =>
      (s.waits wait).frame = .checkingToken ∧ (s.waits wait).token = some token
  | .waitCheckState wait => (s.waits wait).frame = .checkingState
  | .waitPush wait => (s.waits wait).frame = .allocated
  | .waitRetain wait => (s.waits wait).frame = .retaining
  | .waitRegistered wait => (s.waits wait).frame = .registering ∧
      (s.registry.registrations wait).register = .returned
  | .waitPark wait => (s.waits wait).frame = .parking
  | .waitRead wait => (s.waits wait).frame = .parked ∧ (s.waits wait).agent = .thread ∧
      0 < (s.waits wait).counter
  | .waitClose wait => (s.waits wait).frame = .closing
  | .waitUnregister wait => (s.waits wait).frame = .unregistering ∧
      Cancellation.enabled s.registry (.unregisterLock wait)
  | .waitUnregistered wait won => (s.waits wait).frame = .awaiting ∧
      (s.registry.registrations wait).unregister = .returned won
  | .waitRelease wait => (s.waits wait).frame = .releasing
  | .waitRecheck wait token =>
      (s.waits wait).frame = .rechecking ∧ (s.waits wait).token = some token
  | .waitReturn wait => (s.waits wait).frame = .reading
  | .callbackClaim wait => (s.waits wait).callback = .entered
  | .callbackWake wait => (s.waits wait).callback = .waking
  | .completeEnter call future _ => s.complete call = .idle ∧ (s.futures future).release = .idle
  | .completeExchange call future result => s.complete call = .entered future result
  | .completeWrite call future result => s.complete call = .writing future result
  | .completeReady call future => s.complete call = .storing future
  | .completeClose call future => s.complete call = .closing future
  | .completeClaim call future wait rest => s.complete call = .draining future (wait :: rest)
  | .completeWake call future wait rest => s.complete call = .waking future wait rest
  | .completeRelease call future wait rest => s.complete call = .releasing future wait rest
  | .completeReturn call future => s.complete call = .draining future []
  | .releaseSteal future => (s.futures future).release = .idle ∧
      (forall wait, (s.waits wait).future = future -> (s.waits wait).frame.inFlight = false) ∧
      forall call, (s.complete call).inFlight ≠ some future
  | .releaseClose future wait rest => (s.futures future).release = .draining (wait :: rest)
  | .releaseDrop future wait rest => (s.futures future).release = .dropping wait rest
  | .releaseReturn future => (s.futures future).release = .draining []
  | .spawn coroutine _ => (s.coroutines coroutine).status = .absent
  | .workerSpawn scheduler coroutine rest =>
      s.schedulers scheduler = ⟨.spawn coroutine :: rest, none⟩
  | .workerResume scheduler coroutine wait rest =>
      s.schedulers scheduler = ⟨.resume coroutine wait :: rest, none⟩
  | .coroutineExit coroutine => (s.coroutines coroutine).status = .running none

namespace State

/-- The wait returns to its caller. -/
def finish (s : State) (wait : WaitId) (result : Result) : State :=
  (s.setFrame wait (.returned result)).setStatus (s.waits wait).agent (.running none)

/-- The coroutine on the worker of a scheduler yields or exits, and its job ends. -/
def leave (s : State) (scheduler : SchedulerId) : State :=
  s.setScheduler scheduler { s.schedulers scheduler with worker := none }

/-- A coroutine wait yields in `sResumeJob` or `sSpawnJob`; a thread blocks. -/
def park (s : State) (wait : WaitId) : State :=
  match (s.waits wait).agent with
  | .coroutine _ scheduler =>
      ((s.setFrame wait .parked).setStatus (s.waits wait).agent (.suspended wait)).leave scheduler
  | .thread => s.setFrame wait .parked

/-- `sResumeJob`: whatever the coroutine is suspended in goes on.  To resume one that
is not suspended has no meaning, and the state only loses the job. -/
def resume (s : State) (scheduler : SchedulerId) (coroutine : CoroutineId)
    (rest : List Job) : State :=
  match (s.coroutines coroutine).status with
  | .suspended wait =>
      ((s.setFrame wait (s.waits wait).awake).setCoroutine coroutine
        ⟨scheduler, .running (some wait)⟩).setScheduler scheduler ⟨rest, some coroutine⟩
  | _ => s.setScheduler scheduler ⟨rest, none⟩

end State

/-- What each event does. -/
def next (s : State) : Event -> State
  | .registry event => { s.react event with registry := Cancellation.next s.registry event }
  | .waitStart wait agent future token =>
      (s.setWait wait
        { s.waits wait with
          agent := agent
          future := future
          token := token
          frame := if token = none then .checkingState else .checkingToken }).setStatus
        agent (.running (some wait))
  | .waitCheckToken wait token =>
      if (s.registry.tokens token).token.isCancelled then
        s.finish wait (.ofError Future.ecanceled)
      else s.setFrame wait .checkingState
  | .waitCheckState wait =>
      let entry := s.waits wait
      if (s.futures entry.future).isReady then s.setFrame wait .reading
      else
        s.setWait wait
          { entry with
            frame := .allocated
            allocated := true
            refcount := 2
            claimed := false
            blockFd := decide (entry.agent = .thread)
            fdOpen := decide (entry.agent = .thread)
            counter := 0
            cancelHandle := false }
  -- A refused node was never linked: its descriptor is closed and `sWaiterDiscard`
  -- drops both references.
  | .waitPush wait =>
      let entry := s.waits wait
      let cell := s.futures entry.future
      if cell.closed then
        s.setWait wait
          { { entry with refcount := entry.refcount - 1 }.drop with
            frame := .reading
            fdOpen := false
            blockFd := if entry.token = none then entry.blockFd else false }
      else
        (s.setFrame wait (if entry.token = none then .parking else .retaining)).setFuture
          entry.future { cell with waiters := wait :: cell.waiters }
  | .waitRetain wait =>
      s.setWait wait
        { s.waits wait with refcount := (s.waits wait).refcount + 1, frame := .registering }
  | .waitRegistered wait =>
      s.setWait wait { s.waits wait with cancelHandle := true, frame := .parking }
  | .waitPark wait => s.park wait
  | .waitRead wait => s.setWait wait { s.waits wait with counter := 0, frame := .closing }
  | .waitClose wait =>
      let entry := s.waits wait
      s.setWait wait
        { entry with
          fdOpen := false
          blockFd := if entry.token = none then entry.blockFd else false
          frame := entry.awake }
  | .waitUnregister wait =>
      { s.setFrame wait .awaiting with
        registry := Cancellation.next s.registry (.unregisterLock wait) }
  | .waitUnregistered wait _ => s.setFrame wait .releasing
  | .waitRelease wait =>
      let entry := s.waits wait
      s.setWait wait
        { entry.drop with frame := if entry.token = none then .reading else .rechecking }
  | .waitRecheck wait token =>
      if (s.registry.tokens token).token.isCancelled then
        s.finish wait (.ofError Future.ecanceled)
      else s.setFrame wait .reading
  | .waitReturn wait => s.finish wait (s.futures (s.waits wait).future).result
  | .callbackClaim wait =>
      let entry := s.waits wait
      if entry.claimed then s.setWait wait { entry with callback := .done }
      else s.setWait wait { entry with claimed := true, callback := .waking }
  | .callbackWake wait =>
      (s.callbackWake wait).setWait wait
        { (s.callbackWake wait).waits wait with callback := .done }
  | .completeEnter call future result => s.setComplete call (.entered future result)
  | .completeExchange call future result =>
      if (s.futures future).isCompleted then s.setComplete call (.returned false)
      else
        (s.setComplete call (.writing future result)).setFuture
          future { s.futures future with isCompleted := true }
  | .completeWrite call future result =>
      (s.setComplete call (.storing future)).setFuture
        future { s.futures future with result := result }
  | .completeReady call future =>
      (s.setComplete call (.closing future)).setFuture
        future { s.futures future with isReady := true }
  | .completeClose call future =>
      (s.setComplete call (.draining future (s.futures future).waiters)).setFuture
        future { s.futures future with waiters := [], closed := true }
  | .completeClaim call future wait rest =>
      if (s.waits wait).claimed then s.setComplete call (.releasing future wait rest)
      else
        (s.setComplete call (.waking future wait rest)).setWait
          wait { s.waits wait with claimed := true }
  | .completeWake call future wait rest =>
      (s.drainWake wait).setComplete call (.releasing future wait rest)
  | .completeRelease call future wait rest =>
      (s.setComplete call (.draining future rest)).setWait wait (s.waits wait).drop
  | .completeReturn call _ => s.setComplete call (.returned true)
  | .releaseSteal future =>
      let cell := s.futures future
      s.setFuture future
        { cell with waiters := [], closed := true, release := .draining cell.waiters }
  | .releaseClose future wait rest =>
      let entry := s.waits wait
      (s.setFuture future { s.futures future with release := .dropping wait rest }).setWait
        wait { entry with fdOpen := if entry.blockFd then false else entry.fdOpen }
  | .releaseDrop future wait rest =>
      (s.setFuture future { s.futures future with release := .draining rest }).setWait
        wait (s.waits wait).drop
  | .releaseReturn future => s.setFuture future { s.futures future with release := .returned }
  | .spawn coroutine scheduler =>
      let entry := s.schedulers scheduler
      (s.setCoroutine coroutine ⟨scheduler, .spawned⟩).setScheduler
        scheduler { entry with queue := entry.queue ++ [.spawn coroutine] }
  | .workerSpawn scheduler coroutine rest =>
      (s.setCoroutine coroutine ⟨scheduler, .running none⟩).setScheduler
        scheduler ⟨rest, some coroutine⟩
  | .workerResume scheduler coroutine _ rest => s.resume scheduler coroutine rest
  | .coroutineExit coroutine =>
      (s.setCoroutine coroutine { s.coroutines coroutine with status := .exited }).leave
        (s.coroutines coroutine).scheduler

/-- No call has been made. -/
def start : State where
  registry := Cancellation.start
  futures := fun _ => ⟨false, false, .zero, [], false, .idle⟩
  waits := fun _ =>
    ⟨.thread, 0, none, .idle, .idle, false, 0, false, false, false, false, 0, 0, 0, 0⟩
  complete := fun _ => .idle
  coroutines := fun _ => ⟨0, .absent⟩
  schedulers := fun _ => ⟨[], none⟩

/-- Waits, completions and cancellations as a machine. -/
def machine : Transition.Machine State Event where
  initial := fun s => s = start
  enabled := enabled
  next := next

end Waiter
end UfsrvRx
