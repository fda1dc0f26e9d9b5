import UfsrvRx.Future.Result
import UfsrvRx.Transition.Machine

namespace UfsrvRx
namespace Coroutine

open Future (Result)
open Transition

/-!
# The scheduler that user code sees

The two variables of each thread by which `UfsrvFutureGet` decides how to wait:
`t_current_scheduler`, which the spawn and resume jobs set around a coroutine and
restore when control comes back to them, and `t_worker_scheduler`, which marks
the thread of a scheduler.  There are any number of schedulers with one worker
each, of other threads, of coroutines and of futures.  User code runs in plain
jobs, in coroutines and on the other threads.  A step is what a thread does
between two looks at these variables; a wait is in the list of waiters from the
push until something wakes it.  Assertions are compiled out.
-/

namespace Worker

abbrev SchedulerId := Nat

abbrev CoroutineId := Nat

abbrev FutureId := Nat

abbrev TokenId := Nat

inductive ThreadId
  | worker (scheduler : SchedulerId)
  | plain (number : Nat)
deriving DecidableEq, Repr

/-- The jobs with their contexts: `struct UfsrvSpawnContext`, `struct UfsrvResumeContext`. -/
inductive Job
  | plain
  | spawn (scheduler : SchedulerId) (coroutine : CoroutineId)
  | resume (scheduler : SchedulerId) (coroutine : CoroutineId)
deriving DecidableEq, Repr

/-- What a thread executes.  A coroutine runs inside `sSpawnJob` or `sResumeJob`, which has saved
the variable it restores. -/
inductive Code
  | unstarted
  | idle
  | job
  | coroutine (coroutine : CoroutineId) (prevScheduler : Option SchedulerId)
  | user
  | finished
deriving DecidableEq, Repr

/-- A thread.  What its last `Get` returned without waiting is history. -/
structure Local where
  currentScheduler : Option SchedulerId
  workerScheduler : Option SchedulerId
  code : Code
  isBlocked : Bool
  answer : Option Result
deriving DecidableEq, Repr

inductive Status
  | absent
  | spawned
  | running
  | yielded
  | waiting
  | queued
  | ended
deriving DecidableEq, Repr

/-- A coroutine.  The scheduler that `UfsrvCoroutineSpawn` was called with is history. -/
structure Spawned where
  scheduler : SchedulerId
  status : Status
deriving DecidableEq, Repr

/-- `struct UfsrvWaiter` with the thread that pushed it. -/
structure Waiter where
  future : FutureId
  token : Option TokenId
  coroutine : Option CoroutineId
  scheduler : Option SchedulerId
  thread : ThreadId
deriving DecidableEq, Repr

structure FutureCell where
  isReady : Bool
  result : Result
deriving DecidableEq, Repr

structure State where
  threads : ThreadId -> Local
  queue : SchedulerId -> List Job
  coroutines : CoroutineId -> Spawned
  futures : FutureId -> FutureCell
  isCancelled : TokenId -> Bool
  waiters : List Waiter

/-! ## Waiting -/

/-- How a `Get` goes on. -/
inductive Path
  | answer (result : Result)
  | block
  | suspend (scheduler : SchedulerId)
deriving DecidableEq, Repr

/-- `UfsrvFutureGet` up to the choice of the path. -/
def futureGet (thread : Local) (future : FutureCell) : Path :=
  if future.isReady then .answer future.result
  else
    match thread.currentScheduler with
    | none =>
        if thread.workerScheduler.isSome then .answer (.ofError Future.edeadlk)
        else .block
    | some scheduler => .suspend scheduler

/-- `UfsrvFutureGetWithCancellation` up to the choice of the path.  Without a token it is
`UfsrvFutureGet`. -/
def futureGetWithCancellation (thread : Local) (future : FutureCell) (token : Option Bool) : Path :=
  match token with
  | none => futureGet thread future
  | some true => .answer (.ofError Future.ecanceled)
  | some false =>
      if future.isReady then .answer future.result
      else
        match thread.currentScheduler with
        | none =>
            if thread.workerScheduler.isSome then .answer (.ofError Future.edeadlk)
            else .block
        | some scheduler => .suspend scheduler

/-- How far a wait gets.  A failed allocation leaves nothing behind, except that a token which
refuses the registration is told of after the push. -/
inductive Attempt
  | failed
  | refused
  | unregistered
  | waits
deriving DecidableEq, Repr

namespace State

def setThread (s : State) (thread : ThreadId) (entry : Local) : State :=
  { s with threads := Function.update s.threads thread entry }

def setStatus (s : State) (coroutine : CoroutineId) (status : Status) : State :=
  { s with
    coroutines := Function.update s.coroutines coroutine
      { s.coroutines coroutine with status := status } }

def enqueue (s : State) (scheduler : SchedulerId) (job : Job) : State :=
  { s with queue := Function.update s.queue scheduler (s.queue scheduler ++ [job]) }

def push (s : State) (waiter : Waiter) : State :=
  { s with waiters := waiter :: s.waiters }

def answer (s : State) (thread : ThreadId) (result : Result) : State :=
  s.setThread thread { s.threads thread with answer := some result }

/-- Control leaves the coroutine, and the job around it restores the variable. -/
def leave (s : State) (thread : ThreadId) (coroutine : CoroutineId)
    (prevScheduler : Option SchedulerId) (status : Status) : State :=
  (s.setThread thread
    { s.threads thread with currentScheduler := prevScheduler, code := .idle }).setStatus
    coroutine status

/-- The rest of `sFutureGetBlocking` and of `sFutureGetBlockingCancellable`, up to the read. -/
def block (s : State) (thread : ThreadId) (future : FutureId) (token : Option TokenId) :
    Attempt -> State
  | .failed => s.answer thread (.ofError (-1))
  | .refused => s.answer thread (s.futures future).result
  | .unregistered =>
      (s.push ⟨future, token, none, none, thread⟩).answer thread (.ofError (-1))
  | .waits =>
      (s.push ⟨future, token, none, none, thread⟩).setThread thread
        { s.threads thread with isBlocked := true }

/-- The rest of both functions in a coroutine, up to the yield. -/
def suspend (s : State) (thread : ThreadId) (future : FutureId) (token : Option TokenId)
    (scheduler : SchedulerId) (coroutine : CoroutineId) (prevScheduler : Option SchedulerId) :
    Attempt -> State
  | .failed => s.answer thread (.ofError (-1))
  | .refused => s.answer thread (s.futures future).result
  | .unregistered =>
      (s.push ⟨future, token, some coroutine, some scheduler, thread⟩).answer thread
        (.ofError (-1))
  | .waits =>
      (s.push ⟨future, token, some coroutine, some scheduler, thread⟩).leave thread coroutine
        prevScheduler .waiting

/-- `UfsrvFutureGetWithCancellation` by user code on a thread. -/
def get (s : State) (thread : ThreadId) (future : FutureId) (token : Option TokenId)
    (attempt : Attempt) : State :=
  match futureGetWithCancellation (s.threads thread) (s.futures future)
    (token.map s.isCancelled) with
  | .answer result => s.answer thread result
  | .block => s.block thread future token attempt
  | .suspend scheduler =>
      match (s.threads thread).code with
      | .coroutine coroutine prevScheduler =>
          s.suspend thread future token scheduler coroutine prevScheduler attempt
      | _ => s

end State

/-! ## Steps -/

/-- What user code does. -/
inductive Action
  | submit (scheduler : SchedulerId)
  | spawn (scheduler : SchedulerId) (coroutine : CoroutineId)
  | submitResume (scheduler : SchedulerId) (coroutine : CoroutineId)
  | get (future : FutureId) (token : Option TokenId) (attempt : Attempt)
  | yield
  | exit
  | return
deriving DecidableEq, Repr

inductive Event
  | start (scheduler : SchedulerId)
  | finish (scheduler : SchedulerId)
  | take (scheduler : SchedulerId) (job : Job) (rest : List Job) (created : Bool)
  | act (thread : ThreadId) (action : Action)
  | complete (future : FutureId) (result : Result)
  | cancel (token : TokenId)
  | wake (waiter : Waiter)
deriving DecidableEq, Repr

namespace Code

/-- User code runs. -/
def isUser : Code -> Bool
  | job | coroutine _ _ | user => true
  | unstarted | idle | finished => false

def isCoroutine : Code -> Bool
  | coroutine _ _ => true
  | unstarted | idle | job | user | finished => false

end Code

/-- A coroutine that yielded by itself is given back to the scheduler it was spawned on, since it
must be resumed on the thread that created it. -/
def actionEnabled (s : State) (thread : ThreadId) : Action -> Prop
  | .submit _ | .get _ _ _ => True
  | .spawn _ coroutine => (s.coroutines coroutine).status = .absent
  | .submitResume scheduler coroutine =>
      (s.coroutines coroutine).status = .yielded ∧ (s.coroutines coroutine).scheduler = scheduler
  | .yield | .exit => (s.threads thread).code.isCoroutine = true
  | .return => (s.threads thread).code = .job

/-- A waiter is woken when its future is ready or its token cancelled. -/
def enabled (s : State) : Event -> Prop
  | .start scheduler => (s.threads (.worker scheduler)).code = .unstarted
  | .finish scheduler =>
      (s.threads (.worker scheduler)).code = .idle ∧ s.queue scheduler = []
  | .take scheduler job rest _ =>
      (s.threads (.worker scheduler)).code = .idle ∧ s.queue scheduler = job :: rest
  | .act thread action => (s.threads thread).code.isUser = true ∧
      (s.threads thread).isBlocked = false ∧ actionEnabled s thread action
  | .complete future _ => (s.futures future).isReady = false
  | .cancel _ => True
  | .wake waiter => waiter ∈ s.waiters ∧
      ((s.futures waiter.future).isReady = true ∨
        Exists fun token => waiter.token = some token ∧ s.isCancelled token = true)

namespace State

/-- The worker takes a job off the queue and runs it up to user code. -/
def take (s : State) (scheduler : SchedulerId) (job : Job) (rest : List Job) (created : Bool) :
    State :=
  let thread := ThreadId.worker scheduler
  let entry := s.threads thread
  let s := { s with queue := Function.update s.queue scheduler rest }
  match job with
  | .plain => s.setThread thread { entry with code := .job }
  | .spawn target coroutine =>
      if created then
        (s.setThread thread
          { entry with
            currentScheduler := some target
            code := .coroutine coroutine entry.currentScheduler }).setStatus coroutine .running
      else s.setStatus coroutine .ended
  | .resume target coroutine =>
      (s.setThread thread
        { entry with
          currentScheduler := some target
          code := .coroutine coroutine entry.currentScheduler }).setStatus coroutine .running

/-- User code on a thread goes on. -/
def act (s : State) (thread : ThreadId) : Action -> State
  | .submit scheduler => s.enqueue scheduler .plain
  | .spawn scheduler coroutine =>
      { s with
        coroutines := Function.update s.coroutines coroutine ⟨scheduler, .spawned⟩ }.enqueue
        scheduler (.spawn scheduler coroutine)
  | .submitResume scheduler coroutine =>
      (s.setStatus coroutine .queued).enqueue scheduler (.resume scheduler coroutine)
  | .get future token attempt => s.get thread future token attempt
  | .yield =>
      match (s.threads thread).code with
      | .coroutine coroutine prevScheduler => s.leave thread coroutine prevScheduler .yielded
      | _ => s
  | .exit =>
      match (s.threads thread).code with
      | .coroutine coroutine prevScheduler => s.leave thread coroutine prevScheduler .ended
      | _ => s
  | .return => s.setThread thread { s.threads thread with code := .idle }

/-- A completion or a cancellation claims the waiter.  A coroutine is given to
`UfsrvCoroutineSubmitResume`, a blocked thread reads its descriptor. -/
def wake (s : State) (waiter : Waiter) : State :=
  let s := { s with waiters := s.waiters.erase waiter }
  match waiter.coroutine, waiter.scheduler with
  | some coroutine, some scheduler =>
      (s.setStatus coroutine .queued).enqueue scheduler (.resume scheduler coroutine)
  | some _, none => s
  | none, _ => s.setThread waiter.thread { s.threads waiter.thread with isBlocked := false }

end State

def next (s : State) : Event -> State
  | .start scheduler =>
      s.setThread (.worker scheduler)
        { s.threads (.worker scheduler) with workerScheduler := some scheduler, code := .idle }
  | .finish scheduler =>
      s.setThread (.worker scheduler)
        { s.threads (.worker scheduler) with workerScheduler := none, code := .finished }
  | .take scheduler job rest created => s.take scheduler job rest created
  | .act thread action => s.act thread action
  | .complete future result =>
      { s with futures := Function.update s.futures future ⟨true, result⟩ }
  | .cancel token => { s with isCancelled := Function.update s.isCancelled token true }
  | .wake waiter => s.wake waiter

def start : State where
  threads := fun
    | .worker _ => ⟨none, none, .unstarted, false, none⟩
    | .plain _ => ⟨none, none, .user, false, none⟩
  queue := fun _ => []
  coroutines := fun _ => ⟨0, .absent⟩
  futures := fun _ => ⟨false, .zero⟩
  isCancelled := fun _ => false
  waiters := []

def machine : Machine State Event where
  initial := fun s => s = start
  enabled := enabled
  next := next

/-! ## Pinned coroutines -/

/-- The coroutine was spawned on the scheduler. -/
def State.Home (s : State) (coroutine : CoroutineId) (scheduler : SchedulerId) : Prop :=
  (s.coroutines coroutine).status ≠ .absent ∧ (s.coroutines coroutine).scheduler = scheduler

section Pinned

variable (home : CoroutineId -> SchedulerId -> Prop)

/-- How a thread looks in each of its phases. -/
inductive ThreadOk : ThreadId -> Local -> Prop
  | plain (number isBlocked answer) :
      ThreadOk (.plain number) ⟨none, none, .user, isBlocked, answer⟩
  | unstarted (scheduler answer) :
      ThreadOk (.worker scheduler) ⟨none, none, .unstarted, false, answer⟩
  | finished (scheduler answer) :
      ThreadOk (.worker scheduler) ⟨none, none, .finished, false, answer⟩
  | idle (scheduler answer) :
      ThreadOk (.worker scheduler) ⟨none, some scheduler, .idle, false, answer⟩
  | job (scheduler answer) :
      ThreadOk (.worker scheduler) ⟨none, some scheduler, .job, false, answer⟩
  | coroutine (scheduler coroutine answer) : home coroutine scheduler ->
      ThreadOk (.worker scheduler)
        ⟨some scheduler, some scheduler, .coroutine coroutine none, false, answer⟩

/-- The context of a job names the scheduler that executes it. -/
def JobOk (scheduler : SchedulerId) : Job -> Prop
  | .plain => True
  | .spawn target coroutine | .resume target coroutine =>
      target = scheduler ∧ home coroutine scheduler

/-- A waiter names the scheduler of its coroutine. -/
def WaiterOk (waiter : Waiter) : Prop :=
  forall coroutine, waiter.coroutine = some coroutine -> Exists fun scheduler =>
    waiter.scheduler = some scheduler ∧ home coroutine scheduler

end Pinned

structure Pinned (s : State) : Prop where
  threads : forall thread, ThreadOk s.Home thread (s.threads thread)
  jobs : forall scheduler job, job ∈ s.queue scheduler -> JobOk s.Home scheduler job
  waiters : forall waiter, waiter ∈ s.waiters -> WaiterOk s.Home waiter

section

variable {before after : CoroutineId -> SchedulerId -> Prop}
  (keeps : forall coroutine scheduler, before coroutine scheduler -> after coroutine scheduler)
include keeps

theorem ThreadOk.mono {thread : ThreadId} {entry : Local} (ok : ThreadOk before thread entry) :
    ThreadOk after thread entry := by
  cases ok with
  | plain number isBlocked answer => exact .plain number isBlocked answer
  | unstarted scheduler answer => exact .unstarted scheduler answer
  | finished scheduler answer => exact .finished scheduler answer
  | idle scheduler answer => exact .idle scheduler answer
  | job scheduler answer => exact .job scheduler answer
  | coroutine scheduler coroutine answer home =>
      exact .coroutine scheduler coroutine answer (keeps _ _ home)

theorem JobOk.mono {scheduler : SchedulerId} {job : Job} (ok : JobOk before scheduler job) :
    JobOk after scheduler job := by
  cases job with
  | plain => trivial
  | spawn target coroutine => exact ⟨ok.1, keeps _ _ ok.2⟩
  | resume target coroutine => exact ⟨ok.1, keeps _ _ ok.2⟩

theorem WaiterOk.mono {waiter : Waiter} (ok : WaiterOk before waiter) : WaiterOk after waiter := by
  intro coroutine waits
  rcases ok coroutine waits with ⟨scheduler, named, home⟩
  exact ⟨scheduler, named, keeps _ _ home⟩

end

namespace Pinned

variable {s : State}

theorem start : Pinned start where
  threads := fun
    | .worker scheduler => .unstarted scheduler none
    | .plain number => .plain number false none
  jobs := fun _ _ mem => absurd mem List.not_mem_nil
  waiters := fun _ mem => absurd mem List.not_mem_nil

theorem setThread (ok : Pinned s) {thread : ThreadId} {entry : Local}
    (new : ThreadOk s.Home thread entry) : Pinned (s.setThread thread entry) := by
  refine { ok with threads := fun other => ?_ }
  change ThreadOk s.Home other (Function.update s.threads thread entry other)
  by_cases same : other = thread
  · subst same
    rw [Function.update_self]
    exact new
  · rw [Function.update_of_ne same]
    exact ok.threads other

theorem answer (ok : Pinned s) (thread : ThreadId) (result : Result) :
    Pinned (s.answer thread result) := by
  refine ok.setThread ?_
  have entry := ok.threads thread
  generalize s.threads thread = before at entry
  cases entry with
  | plain number isBlocked answer => exact .plain number isBlocked _
  | unstarted scheduler answer => exact .unstarted scheduler _
  | finished scheduler answer => exact .finished scheduler _
  | idle scheduler answer => exact .idle scheduler _
  | job scheduler answer => exact .job scheduler _
  | coroutine scheduler coroutine answer home => exact .coroutine scheduler coroutine _ home

theorem enqueue (ok : Pinned s) {scheduler : SchedulerId} {job : Job}
    (new : JobOk s.Home scheduler job) : Pinned (s.enqueue scheduler job) := by
  refine { ok with jobs := fun other queued mem => ?_ }
  change queued ∈ Function.update s.queue scheduler (s.queue scheduler ++ [job]) other at mem
  by_cases same : other = scheduler
  · subst same
    rw [Function.update_self] at mem
    rcases List.mem_append.mp mem with mem | mem
    · exact ok.jobs other queued mem
    · rw [List.mem_singleton.mp mem]
      exact new
  · rw [Function.update_of_ne same] at mem
    exact ok.jobs other queued mem

theorem push (ok : Pinned s) {waiter : Waiter} (new : WaiterOk s.Home waiter) :
    Pinned (s.push waiter) := by
  refine { ok with waiters := fun other mem => ?_ }
  rcases List.mem_cons.mp mem with rfl | mem
  · exact new
  · exact ok.waiters other mem

/-- The table of coroutines changes, and each stays at home. -/
theorem setCoroutines (ok : Pinned s) (coroutines : CoroutineId -> Spawned)
    (keeps : forall coroutine scheduler, s.Home coroutine scheduler ->
      State.Home { s with coroutines := coroutines } coroutine scheduler) :
    Pinned { s with coroutines := coroutines } where
  threads := fun thread => (ok.threads thread).mono keeps
  jobs := fun scheduler job mem => (ok.jobs scheduler job mem).mono keeps
  waiters := fun waiter mem => (ok.waiters waiter mem).mono keeps

theorem home_setStatus {coroutine : CoroutineId} {status : Status} (present : status ≠ .absent)
    {other : CoroutineId} {scheduler : SchedulerId} (home : s.Home other scheduler) :
    (s.setStatus coroutine status).Home other scheduler := by
  unfold State.Home State.setStatus
  by_cases same : other = coroutine
  · subst same
    simp only [Function.update_self]
    exact ⟨present, home.2⟩
  · simp only [Function.update_of_ne same]
    exact home

theorem setStatus (ok : Pinned s) (coroutine : CoroutineId) {status : Status}
    (present : status ≠ .absent) : Pinned (s.setStatus coroutine status) :=
  ok.setCoroutines _ fun _ _ home => home_setStatus present home

/-- A running coroutine is on the worker it was spawned on. -/
theorem running (ok : Pinned s) {thread : ThreadId} {coroutine : CoroutineId}
    {prevScheduler : Option SchedulerId}
    (code : (s.threads thread).code = .coroutine coroutine prevScheduler) :
    Exists fun scheduler => thread = .worker scheduler ∧ s.Home coroutine scheduler ∧
      s.threads thread = ⟨some scheduler, some scheduler, .coroutine coroutine none, false,
        (s.threads thread).answer⟩ := by
  have entry := ok.threads thread
  generalize s.threads thread = before at entry code
  cases entry with
  | coroutine scheduler _ answer home =>
      cases code
      exact ⟨scheduler, rfl, home, rfl⟩
  | plain | unstarted | finished | idle | job => cases code

/-- A plain job is outside every coroutine. -/
theorem plainJob (ok : Pinned s) {thread : ThreadId} (code : (s.threads thread).code = .job) :
    Exists fun scheduler => thread = .worker scheduler ∧
      s.threads thread = ⟨none, some scheduler, .job, false, (s.threads thread).answer⟩ := by
  have entry := ok.threads thread
  generalize s.threads thread = before at entry code
  cases entry with
  | job scheduler answer => exact ⟨scheduler, rfl, rfl⟩
  | plain | unstarted | finished | idle | coroutine => cases code

/-- So is the loop of a worker. -/
theorem betweenJobs (ok : Pinned s) {scheduler : SchedulerId}
    (code : (s.threads (.worker scheduler)).code = .idle) :
    s.threads (.worker scheduler) =
      ⟨none, some scheduler, .idle, false, (s.threads (.worker scheduler)).answer⟩ := by
  have entry := ok.threads (.worker scheduler)
  generalize s.threads (.worker scheduler) = before at entry code
  cases entry with
  | idle _ answer => rfl
  | unstarted | finished | job | coroutine => cases code

theorem leave (ok : Pinned s) {thread : ThreadId} {coroutine : CoroutineId}
    {prevScheduler : Option SchedulerId} {status : Status}
    (code : (s.threads thread).code = .coroutine coroutine prevScheduler)
    (present : status ≠ .absent) : Pinned (s.leave thread coroutine prevScheduler status) := by
  rcases ok.running code with ⟨scheduler, rfl, home, entry⟩
  rw [entry] at code
  cases code
  refine (ok.setThread ?_).setStatus coroutine present
  rw [entry]
  exact .idle scheduler _

/-- A thread blocks only if neither variable is set. -/
theorem blocks {entry : Local} {cell : FutureCell} {token : Option Bool}
    (path : futureGetWithCancellation entry cell token = .block) :
    entry.currentScheduler = none ∧ entry.workerScheduler = none := by
  cases ready : cell.isReady <;> cases current : entry.currentScheduler <;>
    cases worker : entry.workerScheduler <;> rcases token with _ | _ | _ <;>
      simp_all [futureGetWithCancellation, futureGet]

/-- A wait is suspended on the scheduler that the thread is set to. -/
theorem suspends {entry : Local} {cell : FutureCell} {token : Option Bool}
    {scheduler : SchedulerId}
    (path : futureGetWithCancellation entry cell token = .suspend scheduler) :
    entry.currentScheduler = some scheduler := by
  cases ready : cell.isReady <;> cases current : entry.currentScheduler <;>
    cases worker : entry.workerScheduler <;> rcases token with _ | _ | _ <;>
      simp_all [futureGetWithCancellation, futureGet]

/-- User code outside the workers. -/
theorem elsewhere (ok : Pinned s) {thread : ThreadId}
    (user : (s.threads thread).code.isUser = true)
    (outside : (s.threads thread).workerScheduler = none) : Exists fun number =>
      thread = .plain number ∧ s.threads thread =
        ⟨none, none, .user, (s.threads thread).isBlocked, (s.threads thread).answer⟩ := by
  have entry := ok.threads thread
  generalize s.threads thread = before at entry user outside
  cases entry with
  | plain number isBlocked answer => exact ⟨number, rfl, rfl⟩
  | unstarted | finished | idle => cases user
  | job | coroutine => cases outside

theorem get (ok : Pinned s) {thread : ThreadId} (user : (s.threads thread).code.isUser = true)
    (future : FutureId) (token : Option TokenId) (attempt : Attempt) :
    Pinned (s.get thread future token attempt) := by
  unfold State.get
  cases path : futureGetWithCancellation (s.threads thread) (s.futures future)
      (token.map s.isCancelled) with
  | answer result => exact ok.answer thread result
  | block =>
      rcases ok.elsewhere user (blocks path).2 with ⟨number, rfl, entry⟩
      have waiter : WaiterOk s.Home ⟨future, token, none, none, .plain number⟩ := nofun
      cases attempt with
      | failed => exact ok.answer _ _
      | refused => exact ok.answer _ _
      | unregistered => exact (ok.push waiter).answer _ _
      | waits =>
          refine (ok.push waiter).setThread ?_
          change ThreadOk _ _ { s.threads (.plain number) with isBlocked := true }
          rw [entry]
          exact .plain number true _
  | suspend scheduler =>
      simp only
      split
      · rename_i coroutine prevScheduler code
        rcases ok.running code with ⟨home, rfl, inside, entry⟩
        have waiter : WaiterOk s.Home ⟨future, token, some coroutine, some scheduler,
            .worker home⟩ := by
          rintro _ ⟨⟩
          have current := suspends path
          rw [entry] at current
          cases current
          exact ⟨_, rfl, inside⟩
        cases attempt with
        | failed => exact ok.answer _ _
        | refused => exact ok.answer _ _
        | unregistered => exact (ok.push waiter).answer _ _
        | waits => exact (ok.push waiter).leave code nofun
      · exact ok

theorem take (ok : Pinned s) {scheduler : SchedulerId} {job : Job} {rest : List Job}
    (code : (s.threads (.worker scheduler)).code = .idle)
    (queued : s.queue scheduler = job :: rest) (created : Bool) :
    Pinned (s.take scheduler job rest created) := by
  have shorter : Pinned { s with queue := Function.update s.queue scheduler rest } := by
    refine { ok with jobs := fun other left mem => ok.jobs other left ?_ }
    change left ∈ Function.update s.queue scheduler rest other at mem
    by_cases same : other = scheduler
    · subst same
      rw [Function.update_self] at mem
      rw [queued]
      exact List.mem_cons_of_mem _ mem
    · rw [Function.update_of_ne same] at mem
      exact mem
  have own := ok.jobs scheduler job (queued ▸ List.mem_cons_self)
  have entry := ok.betweenJobs code
  cases job with
  | plain =>
      refine shorter.setThread ?_
      rw [entry]
      exact .job scheduler _
  | spawn target coroutine =>
      rcases own with ⟨rfl, home⟩
      simp only [State.take]
      split
      · refine (shorter.setThread ?_).setStatus coroutine nofun
        rw [entry]
        exact .coroutine target coroutine _ home
      · exact shorter.setStatus coroutine nofun
  | resume target coroutine =>
      rcases own with ⟨rfl, home⟩
      refine (shorter.setThread ?_).setStatus coroutine nofun
      rw [entry]
      exact .coroutine target coroutine _ home

theorem act (ok : Pinned s) {thread : ThreadId} {action : Action}
    (may : enabled s (.act thread action)) : Pinned (s.act thread action) := by
  rcases may with ⟨user, _, may⟩
  cases action with
  | submit scheduler => exact ok.enqueue trivial
  | spawn scheduler coroutine =>
      have spawned := ok.setCoroutines
        (Function.update s.coroutines coroutine ⟨scheduler, .spawned⟩) (by
          intro other home inside
          have different : other ≠ coroutine := by
            rintro rfl
            exact inside.1 may
          unfold State.Home
          simp only [Function.update_of_ne different]
          exact inside)
      have home : State.Home { s with
          coroutines := Function.update s.coroutines coroutine ⟨scheduler, .spawned⟩ }
          coroutine scheduler := by simp [State.Home]
      have queued : JobOk _ scheduler (.spawn scheduler coroutine) := ⟨rfl, home⟩
      exact spawned.enqueue queued
  | submitResume scheduler coroutine =>
      have present : Status.queued ≠ .absent := nofun
      have home : s.Home coroutine scheduler := ⟨by rw [may.1]; nofun, may.2⟩
      have queued : JobOk (s.setStatus coroutine .queued).Home scheduler
          (.resume scheduler coroutine) := ⟨rfl, home_setStatus present home⟩
      exact (ok.setStatus coroutine present).enqueue queued
  | get future token attempt => exact ok.get user future token attempt
  | yield =>
      simp only [State.act]
      split
      · rename_i code
        exact ok.leave code nofun
      · exact ok
  | exit =>
      simp only [State.act]
      split
      · rename_i code
        exact ok.leave code nofun
      · exact ok
  | «return» =>
      rcases ok.plainJob may with ⟨scheduler, rfl, entry⟩
      refine ok.setThread ?_
      rw [entry]
      exact .idle scheduler _

theorem wake (ok : Pinned s) {waiter : Waiter} (mem : waiter ∈ s.waiters) :
    Pinned (s.wake waiter) := by
  have fewer : Pinned { s with waiters := s.waiters.erase waiter } :=
    { ok with waiters := fun other inside => ok.waiters other (List.mem_of_mem_erase inside) }
  unfold State.wake
  split
  · rename_i coroutine scheduler waits named
    rcases ok.waiters waiter mem coroutine waits with ⟨home, same, inside⟩
    cases named.symm.trans same
    have present : Status.queued ≠ .absent := nofun
    have queued : JobOk (State.setStatus { s with waiters := s.waiters.erase waiter } coroutine
        .queued).Home scheduler (.resume scheduler coroutine) :=
      ⟨rfl, home_setStatus present inside⟩
    exact (fewer.setStatus coroutine present).enqueue queued
  · exact fewer
  · refine fewer.setThread ?_
    change ThreadOk s.Home waiter.thread { s.threads waiter.thread with isBlocked := false }
    have entry := ok.threads waiter.thread
    generalize waiter.thread = thread at entry
    generalize s.threads thread = before at entry
    cases entry with
    | plain number isBlocked answer => exact .plain number false answer
    | unstarted scheduler answer => exact .unstarted scheduler answer
    | finished scheduler answer => exact .finished scheduler answer
    | idle scheduler answer => exact .idle scheduler answer
    | job scheduler answer => exact .job scheduler answer
    | coroutine scheduler coroutine answer home => exact .coroutine scheduler coroutine answer home

theorem next (ok : Pinned s) {event : Event} (may : enabled s event) :
    Pinned (Worker.next s event) := by
  cases event with
  | start scheduler =>
      refine ok.setThread ?_
      have entry := ok.threads (.worker scheduler)
      change (s.threads (.worker scheduler)).code = .unstarted at may
      generalize s.threads (.worker scheduler) = before at entry may
      cases entry with
      | unstarted _ answer => exact .idle scheduler answer
      | finished | idle | job | coroutine => cases may
  | finish scheduler =>
      refine ok.setThread ?_
      rw [ok.betweenJobs may.1]
      exact .finished scheduler _
  | take scheduler job rest created => exact ok.take may.1 may.2 created
  | act thread action => exact ok.act may
  | complete future result => exact { ok with }
  | cancel token => exact { ok with }
  | wake waiter => exact ok.wake may.1

end Pinned

theorem reachable_pinned {s : State} (reached : machine.Reachable s) : Pinned s := by
  refine reached.invariant Pinned ?_ ?_
  · intro s initial
    rw [show s = Worker.start from initial]
    exact .start
  · exact fun s event _ ok may => ok.next may

/-! ## Staying at home -/

section Home

variable {s : State} {coroutine : CoroutineId} {home : SchedulerId}

theorem home_leave (inside : s.Home coroutine home) {status : Status} (present : status ≠ .absent)
    (thread : ThreadId) (other : CoroutineId) (prevScheduler : Option SchedulerId) :
    (s.leave thread other prevScheduler status).Home coroutine home := by
  refine Pinned.home_setStatus present ?_
  exact inside

theorem home_get (inside : s.Home coroutine home) (thread : ThreadId) (future : FutureId)
    (token : Option TokenId) (attempt : Attempt) :
    (s.get thread future token attempt).Home coroutine home := by
  unfold State.get
  split
  · exact inside
  · cases attempt <;> exact inside
  · split
    · have present : Status.waiting ≠ .absent := nofun
      cases attempt with
      | failed | refused | unregistered => exact inside
      | waits =>
          refine home_leave ?_ present _ _ _
          exact inside
    · exact inside

/-- No step moves a spawned coroutine to another scheduler. -/
theorem home_next {event : Event} (may : enabled s event) (inside : s.Home coroutine home) :
    (next s event).Home coroutine home := by
  cases event with
  | start scheduler => exact inside
  | finish scheduler => exact inside
  | complete future result => exact inside
  | cancel token => exact inside
  | take scheduler job rest created =>
      have running : Status.running ≠ .absent := nofun
      have ended : Status.ended ≠ .absent := nofun
      cases job with
      | plain => exact inside
      | spawn target other =>
          simp only [next, State.take]
          split
          · exact Pinned.home_setStatus running inside
          · exact Pinned.home_setStatus ended inside
      | resume target other => exact Pinned.home_setStatus running inside
  | act thread action =>
      cases action with
      | submit scheduler => exact inside
      | spawn scheduler other =>
          have different : coroutine ≠ other := by
            rintro rfl
            exact inside.1 may.2.2
          unfold State.Home
          simp only [next, State.act, State.enqueue, Function.update_of_ne different]
          exact inside
      | submitResume scheduler other =>
          have queued : Status.queued ≠ .absent := nofun
          exact Pinned.home_setStatus queued inside
      | get future token attempt => exact home_get inside thread future token attempt
      | yield =>
          have yielded : Status.yielded ≠ .absent := nofun
          simp only [next, State.act]
          split
          · exact home_leave inside yielded _ _ _
          · exact inside
      | exit =>
          have ended : Status.ended ≠ .absent := nofun
          simp only [next, State.act]
          split
          · exact home_leave inside ended _ _ _
          · exact inside
      | «return» => exact inside
  | wake waiter =>
      have queued : Status.queued ≠ .absent := nofun
      simp only [next, State.wake]
      split
      · exact Pinned.home_setStatus queued inside
      · exact inside
      · exact inside

theorem home_run {first last : State} {events : List Event} (reached : machine.Reachable first)
    (run : machine.Run first events last) (inside : first.Home coroutine home) :
    last.Home coroutine home :=
  run.stable (fun s => s.Home coroutine home) (fun _ _ _ inside may => home_next may inside)
    reached inside

end Home

/-! ## The contract -/

/-- What user code in a plain job gets for waiting for a pending future. -/
def refusal (s : State) (token : Option TokenId) : Result :=
  if (token.map s.isCancelled) = some true then .ofError Future.ecanceled
  else .ofError Future.edeadlk

theorem path_worker {entry : Local} {cell : FutureCell} (pending : cell.isReady = false)
    {scheduler : SchedulerId} (current : entry.currentScheduler = none)
    (worker : entry.workerScheduler = some scheduler) (token : Option Bool) :
    futureGetWithCancellation entry cell token =
      .answer (if token = some true then .ofError Future.ecanceled else .ofError Future.edeadlk) := by
  rcases token with _ | _ | _ <;>
    simp [futureGetWithCancellation, futureGet, pending, current, worker]

/-- No wait parks a worker.  A plain job sees no scheduler, and waiting there for a pending future
returns at once and leaves nothing behind; a coroutine sees the scheduler it was spawned on
whenever it runs; and only threads that are no workers block. -/
theorem workerNeverParked {s : State} (reached : machine.Reachable s) :
    (forall thread, (s.threads thread).code = .job ->
      (s.threads thread).currentScheduler = none ∧
        forall future token attempt, (s.futures future).isReady = false ->
          s.get thread future token attempt = s.answer thread (refusal s token)) ∧
    (forall thread scheduler coroutine events last,
      enabled s (.act thread (.spawn scheduler coroutine)) ->
      machine.Run (next s (.act thread (.spawn scheduler coroutine))) events last ->
      forall other prevScheduler, (last.threads other).code = .coroutine coroutine prevScheduler ->
        other = .worker scheduler ∧ (last.threads other).currentScheduler = some scheduler) ∧
    (forall scheduler, (s.threads (.worker scheduler)).isBlocked = false) ∧
    forall thread future (token : Option TokenId), (s.threads thread).code.isUser = true ->
      futureGetWithCancellation (s.threads thread) (s.futures future) (token.map s.isCancelled) =
        .block -> forall scheduler, thread ≠ .worker scheduler := by
  have ok := reachable_pinned reached
  refine ⟨?_, ?_, ?_, ?_⟩
  · intro thread code
    rcases ok.plainJob code with ⟨scheduler, rfl, entry⟩
    have current : (s.threads (.worker scheduler)).currentScheduler = none := by rw [entry]
    have worker : (s.threads (.worker scheduler)).workerScheduler = some scheduler := by rw [entry]
    refine ⟨current, ?_⟩
    intro future token attempt pending
    simp only [State.get, path_worker pending current worker, refusal]
  · intro thread scheduler coroutine events last may run other prevScheduler code
    have spawned : (next s (.act thread (.spawn scheduler coroutine))).Home coroutine scheduler := by
      simp [next, State.act, State.enqueue, State.Home]
    have later := reached.step
      (show machine.enabled s (.act thread (.spawn scheduler coroutine)) from may)
    rcases (reachable_pinned (later.run run)).running code with ⟨home, rfl, inside, entry⟩
    have stays := home_run later run spawned
    cases inside.2.symm.trans stays.2
    refine ⟨rfl, ?_⟩
    rw [entry]
  · intro scheduler
    have entry := ok.threads (.worker scheduler)
    generalize s.threads (.worker scheduler) = before at entry
    cases entry with
    | unstarted | finished | idle | job | coroutine => rfl
  · intro thread future token user path scheduler same
    rcases ok.elsewhere user (Pinned.blocks path).2 with ⟨number, plain, _⟩
    cases same.symm.trans plain

/-- A coroutine waits, another thread completes its future, and the worker resumes it. -/
def suspendOnce : List Event :=
  [.take 0 (.spawn 0 0) [] true, .act (.worker 0) (.get 0 none .waits), .complete 0 .zero,
    .wake ⟨0, none, some 0, some 0, .worker 0⟩, .take 0 (.resume 0 0) [] true]

theorem workerNeverParked_suspendOnce : Exists fun s => machine.Reachable s ∧
    (s.threads (.worker 0)).code = .coroutine 0 none ∧
      (s.threads (.worker 0)).currentScheduler = some 0 := by
  have fresh : machine.Reachable start := .start rfl
  have started := fresh.step (show machine.enabled start (.start 0) from rfl)
  have may : enabled (next start (.start 0)) (.act (.plain 0) (.spawn 0 0)) := ⟨rfl, rfl, rfl⟩
  have run : machine.AllEnabled (next (next start (.start 0)) (.act (.plain 0) (.spawn 0 0)))
      suspendOnce :=
    ⟨⟨rfl, rfl⟩, ⟨rfl, rfl, trivial⟩, rfl, ⟨List.mem_cons_self, .inl rfl⟩, ⟨rfl, rfl⟩, trivial⟩
  have sees := (workerNeverParked started).2.1 (.plain 0) 0 0 suspendOnce _ may run.run
    (.worker 0) none rfl
  have spawned := started.step (show machine.enabled _ (.act (.plain 0) (.spawn 0 0)) from may)
  exact ⟨_, spawned.run run.run, rfl, sees.2⟩

end Worker
end Coroutine
end UfsrvRx
