import Mathlib.Algebra.GroupWithZero.Nat
import Mathlib.Data.List.Basic
import UfsrvRx.Transition.Machine

namespace UfsrvRx
namespace Pool

open Transition

/-!
# The life of a pool

The calls on a pool of one thread, from `UfsrvSchedulerPoolCreate` to
`UfsrvSchedulerPoolDestroy`.  Creating a worker or its thread may fail each time.  A worker's
thread ends only when it was told to stop, so a join with a worker that was not does not return.
-/

/-- What happens to a worker. -/
inductive Mark
  | created
  | signalled
  | joined
  | freed
deriving DecidableEq, Repr

/-- `struct UfsrvScheduler` with its lifecycle flags.  What happened to it is history. -/
structure Scheduler where
  isRunning : Bool
  isStarted : Bool
  isJoined : Bool
  log : List Mark
deriving DecidableEq, Repr

/-- `struct UfsrvSchedulerPool`. -/
structure State where
  workers : List Scheduler
  next : Nat
  isRunning : Bool
deriving DecidableEq, Repr

/-! ## One worker -/

namespace Scheduler

def mark (scheduler : Scheduler) (what : Mark) : Scheduler :=
  { scheduler with log := scheduler.log ++ [what] }

/-- `UfsrvSchedulerCreate`. -/
def create : Scheduler :=
  ⟨false, false, false, []⟩

/-- `UfsrvSchedulerStart`, and whether it returned 0. -/
def start (threadCreated : Bool) (scheduler : Scheduler) : Scheduler × Bool :=
  if scheduler.isStarted then (scheduler, false)
  else if threadCreated then
    ({ scheduler.mark .created with isRunning := true, isStarted := true }, true)
  else ({ scheduler with isRunning := false }, false)

/-- `UfsrvSchedulerStop`. -/
def stop (scheduler : Scheduler) : Scheduler :=
  { scheduler.mark .signalled with isRunning := false }

/-- `UfsrvSchedulerJoin`, if it returns. -/
def join (scheduler : Scheduler) : Option Scheduler :=
  if scheduler.isStarted = false ∨ scheduler.isJoined = true then some scheduler
  else if scheduler.isRunning then none
  else some { scheduler.mark .joined with isJoined := true }

/-- `UfsrvSchedulerDestroy`, if it returns. -/
def destroy (scheduler : Scheduler) : Option Scheduler :=
  if scheduler.isStarted = true ∧ scheduler.isJoined = false then
    scheduler.stop.join.map fun scheduler => scheduler.mark .freed
  else some (scheduler.mark .freed)

end Scheduler

/-! ## The pool -/

/-- The loop of `UfsrvSchedulerPoolCreate`.  When a worker cannot be created, the ones before
are destroyed, and there is no pool. -/
def createLoop (creates : Nat -> Bool) : List Scheduler -> Nat -> Option (List Scheduler × Bool)
  | workers, 0 => some (workers, true)
  | workers, left + 1 =>
      if creates workers.length then createLoop creates (workers ++ [.create]) left
      else (workers.mapM Scheduler.destroy).map fun freed => (freed, false)

/-- `UfsrvSchedulerPoolCreate`: the workers that it created, and whether it returned a pool. -/
def createPool (allocated : Bool) (workerCount : Nat) (creates : Nat -> Bool) :
    Option (List Scheduler × Bool) :=
  if workerCount = 0 ∨ allocated = false then some ([], false)
  else createLoop creates [] workerCount

/-- The loop of `UfsrvSchedulerPoolStart`.  When a worker cannot be started, the ones before are
told to stop. -/
def startLoop (creates : Nat -> Bool) : List Scheduler -> List Scheduler -> List Scheduler × Bool
  | started, [] => (started, true)
  | started, worker :: workers =>
      let tried := worker.start (creates started.length)
      if tried.2 then startLoop creates (started ++ [tried.1]) workers
      else (started.map Scheduler.stop ++ tried.1 :: workers, false)

namespace State

/-- `UfsrvSchedulerPoolStart`, and whether it returned 0. -/
def start (creates : Nat -> Bool) (pool : State) : State × Bool :=
  let loop := startLoop creates [] pool.workers
  ({ pool with workers := loop.1, isRunning := pool.isRunning || loop.2 }, loop.2)

/-- `UfsrvSchedulerPoolStop`. -/
def stop (pool : State) : State :=
  { pool with workers := pool.workers.map Scheduler.stop, isRunning := false }

/-- `UfsrvSchedulerPoolJoin`, if it returns. -/
def join (pool : State) : Option State :=
  (pool.workers.mapM Scheduler.join).map fun workers => { pool with workers := workers }

/-- `UfsrvSchedulerSubmit` to a worker accepts the job. -/
def accepts (pool : State) (index : Nat) (allocated : Bool) : Bool :=
  allocated && (pool.workers[index]?).any Scheduler.isRunning

/-- `UfsrvSchedulerPoolSubmit`, and whether it accepted the job. -/
def submit (allocated : Bool) (pool : State) : State × Bool :=
  if pool.isRunning then
    ({ pool with next := (pool.next + 1) % 2 ^ 32 },
      pool.accepts (pool.next % pool.workers.length) allocated)
  else (pool, false)

/-- `UfsrvSchedulerPoolSubmitTo`, and whether it accepted the job. -/
def submitTo (index : Int) (allocated : Bool) (pool : State) : State × Bool :=
  if pool.isRunning then
    if index < 0 ∨ (pool.workers.length : Int) ≤ index then pool.submit allocated
    else (pool, pool.accepts index.toNat allocated)
  else (pool, false)

/-- `UfsrvSchedulerPoolDestroy`, if it returns: the workers as they were freed. -/
def destroy (pool : State) : Option (List Scheduler) :=
  if pool.isRunning then pool.stop.join.bind fun pool => pool.workers.mapM Scheduler.destroy
  else pool.workers.mapM Scheduler.destroy

end State

/-! ## Calls -/

inductive Call
  | start (creates : Nat -> Bool)
  | stop
  | join
  | submit (allocated : Bool)
  | submitTo (index : Int) (allocated : Bool)

def next (pool : State) : Call -> State
  | .start creates => (pool.start creates).1
  | .stop => pool.stop
  | .join => pool.join.getD pool
  | .submit allocated => (pool.submit allocated).1
  | .submitTo index allocated => (pool.submitTo index allocated).1

/-- A call that is made returns. -/
def returns (pool : State) : Call -> Prop
  | .join => pool.join.isSome = true
  | _ => True

/-- The calls on a pool that was created. -/
def lifecycle : Machine State Call where
  initial := fun pool => Exists fun workerCount => Exists fun creates =>
    createPool true workerCount creates = some (pool.workers, true) ∧
      pool.next = 0 ∧ pool.isRunning = false
  enabled := returns
  next := next

/-! ## Torn down -/

/-- The worker was freed once, at the end.  If its thread was created, it was told to stop after
that, and joined once after that; if not, no join was tried. -/
structure TornDown (log : List Mark) : Prop where
  freed : log.count .freed = 1
  last : log.getLast? = some .freed
  joined : .created ∈ log -> log.count .created = 1 ∧ log.count .joined = 1 ∧
    [.created, .signalled, .joined, .freed].Sublist log
  unjoined : .created ∉ log -> .joined ∉ log

/-- What the flags of a worker say about its past. -/
structure Scheduler.Ok (scheduler : Scheduler) : Prop where
  unfreed : .freed ∉ scheduler.log
  fresh : scheduler.isStarted = false -> scheduler.isRunning = false ∧
    .created ∉ scheduler.log ∧ .joined ∉ scheduler.log
  once : scheduler.isStarted = true -> scheduler.log.count .created = 1
  told : scheduler.isStarted = true -> scheduler.isRunning = false ->
    [.created, .signalled].Sublist scheduler.log
  alone : scheduler.isJoined = false -> .joined ∉ scheduler.log
  ended : scheduler.isJoined = true -> scheduler.isStarted = true ∧
    scheduler.isRunning = false ∧ scheduler.log.count .joined = 1 ∧
      [.created, .signalled, .joined].Sublist scheduler.log

namespace Scheduler.Ok

variable {scheduler after : Scheduler}

theorem create : Scheduler.create.Ok where
  unfreed := by simp [Scheduler.create]
  fresh := by simp [Scheduler.create]
  once := by simp [Scheduler.create]
  told := by simp [Scheduler.create]
  alone := by simp [Scheduler.create]
  ended := by simp [Scheduler.create]

theorem stop (ok : scheduler.Ok) : scheduler.stop.Ok where
  unfreed := by simpa [Scheduler.stop, Scheduler.mark] using ok.unfreed
  fresh := by
    intro idle
    have before := ok.fresh idle
    simpa [Scheduler.stop, Scheduler.mark] using before.2
  once := by
    intro started
    have before := ok.once started
    simpa [Scheduler.stop, Scheduler.mark] using before
  told := by
    intro started _
    have before : .created ∈ scheduler.log := by
      rw [<- List.count_pos_iff, ok.once started]
      exact Nat.one_pos
    exact List.Sublist.append (List.singleton_sublist.mpr before) (List.Sublist.refl [Mark.signalled])
  alone := by
    intro alone
    simpa [Scheduler.stop, Scheduler.mark] using ok.alone alone
  ended := by
    intro joined
    rcases ok.ended joined with ⟨started, _, once, order⟩
    refine ⟨started, rfl, ?_, order.trans (List.sublist_append_left _ _)⟩
    simpa [Scheduler.stop, Scheduler.mark] using once

theorem start (ok : scheduler.Ok) (threadCreated : Bool) :
    (scheduler.start threadCreated).1.Ok := by
  unfold Scheduler.start
  split
  · exact ok
  · rename_i idle
    rw [Bool.not_eq_true] at idle
    have unjoined : scheduler.isJoined = false := by
      cases joined : scheduler.isJoined with
      | false => rfl
      | true =>
          have started := (ok.ended joined).1
          rw [idle] at started
          cases started
    rcases ok.fresh idle with ⟨_, uncreated, alone⟩
    split
    · refine ⟨?_, ?_, ?_, ?_, ?_, ?_⟩
      · simpa [Scheduler.mark] using ok.unfreed
      · simp
      · simpa [Scheduler.mark] using List.count_eq_zero.mpr uncreated
      · simp
      · simpa [Scheduler.mark, unjoined] using alone
      · simp [Scheduler.mark, unjoined]
    · refine { ok with fresh := ?_, told := ?_, ended := ?_ }
      · exact fun _ => ⟨rfl, uncreated, alone⟩
      · intro started
        rw [idle] at started
        cases started
      · intro joined
        rw [unjoined] at joined
        cases joined

theorem join (ok : scheduler.Ok) (joined : scheduler.join = some after) : after.Ok := by
  unfold Scheduler.join at joined
  split at joined
  · cases joined
    exact ok
  · rename_i pending
    split at joined
    · cases joined
    · rename_i stopped
      cases joined
      simp only [not_or, Bool.not_eq_false, Bool.not_eq_true] at pending stopped
      have told := ok.told pending.1 stopped
      have once := ok.once pending.1
      have alone := ok.alone pending.2
      refine ⟨?_, ?_, ?_, ?_, ?_, ?_⟩
      · simpa [Scheduler.mark] using ok.unfreed
      · simp [Scheduler.mark, pending.1]
      · simpa [Scheduler.mark] using fun _ => once
      · exact fun _ _ => told.trans (List.sublist_append_left _ _)
      · simp
      · intro _
        refine ⟨pending.1, stopped, ?_, List.Sublist.append told (List.Sublist.refl [Mark.joined])⟩
        simpa [Scheduler.mark] using List.count_eq_zero.mpr alone

/-- A worker whose thread is gone, or never was, is freed. -/
theorem free (ok : scheduler.Ok)
    (gone : scheduler.isStarted = false ∨ scheduler.isJoined = true) :
    TornDown (scheduler.mark .freed).log where
  freed := by simpa [Scheduler.mark] using List.count_eq_zero.mpr ok.unfreed
  last := by simp [Scheduler.mark]
  joined := by
    intro created
    rcases gone with idle | joined
    · have uncreated := (ok.fresh idle).2.1
      simp [Scheduler.mark, uncreated] at created
    · rcases ok.ended joined with ⟨started, _, once, order⟩
      refine ⟨?_, ?_, List.Sublist.append order (List.Sublist.refl [Mark.freed])⟩
      · simpa [Scheduler.mark] using ok.once started
      · simpa [Scheduler.mark] using once
  unjoined := by
    intro uncreated
    rcases gone with idle | joined
    · simpa [Scheduler.mark] using (ok.fresh idle).2.2
    · have once := ok.once (ok.ended joined).1
      have created : .created ∈ scheduler.log := by
        rw [<- List.count_pos_iff, once]
        exact Nat.one_pos
      exact absurd (List.mem_append_left _ created) uncreated

/-- `UfsrvSchedulerDestroy` returns. -/
theorem destroy (ok : scheduler.Ok) : Exists fun freed =>
    scheduler.destroy = some freed ∧ TornDown freed.log := by
  unfold Scheduler.destroy
  split
  · rename_i pending
    have stopped := ok.stop
    have returns : scheduler.stop.join = some { scheduler.stop.mark .joined with isJoined := true } := by
      simp [Scheduler.join, Scheduler.stop, Scheduler.mark, pending]
    have joined := stopped.join returns
    rw [returns]
    exact ⟨_, rfl, joined.free (.inr rfl)⟩
  · rename_i gone
    refine ⟨_, rfl, ok.free ?_⟩
    cases started : scheduler.isStarted with
    | false => exact .inl rfl
    | true =>
        rw [started] at gone
        simpa using gone

end Scheduler.Ok

/-! ## All workers -/

theorem forall_of_mapM {act : Scheduler -> Option Scheduler} {property : Scheduler -> Prop}
    {workers after : List Scheduler} (acted : workers.mapM act = some after)
    (each : forall worker other, worker ∈ workers -> act worker = some other -> property other) :
    after.length = workers.length ∧ forall other, other ∈ after -> property other := by
  induction workers generalizing after with
  | nil =>
      cases acted
      exact ⟨rfl, by simp⟩
  | cons worker workers inductionHypothesis =>
      rw [List.mapM_cons] at acted
      rcases Option.bind_eq_some_iff.mp acted with ⟨first, made, acted⟩
      rcases Option.bind_eq_some_iff.mp acted with ⟨others, rest, whole⟩
      cases whole
      have tail := inductionHypothesis rest fun worker other mem =>
        each worker other (List.mem_cons_of_mem _ mem)
      refine ⟨congrArg (· + 1) tail.1, ?_⟩
      intro other mem
      rcases List.mem_cons.mp mem with rfl | mem
      · exact each worker other List.mem_cons_self made
      · exact tail.2 other mem

theorem destroy_all {workers : List Scheduler} (ok : forall worker, worker ∈ workers -> worker.Ok) :
    Exists fun freed => workers.mapM Scheduler.destroy = some freed ∧
      freed.length = workers.length ∧ forall worker, worker ∈ freed -> TornDown worker.log := by
  have returns : Exists fun freed => workers.mapM Scheduler.destroy = some freed := by
    induction workers with
    | nil => exact ⟨[], rfl⟩
    | cons worker workers inductionHypothesis =>
        rcases (ok worker List.mem_cons_self).destroy with ⟨first, freed, _⟩
        rcases inductionHypothesis fun other mem => ok other (List.mem_cons_of_mem _ mem) with
          ⟨others, rest⟩
        refine ⟨first :: others, ?_⟩
        rw [List.mapM_cons, freed, rest]
        rfl
  rcases returns with ⟨freed, acted⟩
  refine ⟨freed, acted, forall_of_mapM acted ?_⟩
  intro worker other mem destroyed
  rcases (ok worker mem).destroy with ⟨made, freed, torn⟩
  rw [freed] at destroyed
  cases destroyed
  exact torn

theorem ok_createLoop (creates : Nat -> Bool) (workers : List Scheduler) (left : Nat)
    (ok : forall worker, worker ∈ workers -> worker.Ok) :
    Exists fun made => createLoop creates workers left = some made ∧
      (made.2 = true -> forall worker, worker ∈ made.1 -> worker.Ok) ∧
      (made.2 = false -> forall worker, worker ∈ made.1 -> TornDown worker.log) := by
  induction left generalizing workers with
  | zero => exact ⟨_, rfl, fun _ => ok, by simp⟩
  | succ left inductionHypothesis =>
      unfold createLoop
      split
      · refine inductionHypothesis (workers ++ [.create]) ?_
        intro worker mem
        rcases List.mem_append.mp mem with mem | mem
        · exact ok worker mem
        · rw [List.mem_singleton.mp mem]
          exact .create
      · rcases destroy_all ok with ⟨freed, acted, _, torn⟩
        refine ⟨(freed, false), ?_, by simp, fun _ => torn⟩
        rw [acted]
        rfl

theorem ok_createPool (allocated : Bool) (workerCount : Nat) (creates : Nat -> Bool) :
    Exists fun made => createPool allocated workerCount creates = some made ∧
      (made.2 = true -> forall worker, worker ∈ made.1 -> worker.Ok) ∧
      (made.2 = false -> forall worker, worker ∈ made.1 -> TornDown worker.log) := by
  unfold createPool
  split
  · exact ⟨_, rfl, by simp, by simp⟩
  · exact ok_createLoop creates [] workerCount (by simp)

theorem ok_startLoop (creates : Nat -> Bool) (started workers : List Scheduler)
    (before : forall worker, worker ∈ started -> worker.Ok)
    (after : forall worker, worker ∈ workers -> worker.Ok) :
    forall worker, worker ∈ (startLoop creates started workers).1 -> worker.Ok := by
  induction workers generalizing started with
  | nil => exact before
  | cons worker workers inductionHypothesis =>
      have tried := (after worker List.mem_cons_self).start (creates started.length)
      have rest := fun other mem => after other (List.mem_cons_of_mem worker mem)
      simp only [startLoop]
      split
      · refine inductionHypothesis _ ?_ rest
        intro other mem
        rcases List.mem_append.mp mem with mem | mem
        · exact before other mem
        · rw [List.mem_singleton.mp mem]
          exact tried
      · intro other mem
        rcases List.mem_append.mp mem with mem | mem
        · rcases List.mem_map.mp mem with ⟨stopped, inside, rfl⟩
          exact (before stopped inside).stop
        · rcases List.mem_cons.mp mem with rfl | mem
          · exact tried
          · exact rest other mem

def State.Ok (pool : State) : Prop :=
  forall worker, worker ∈ pool.workers -> worker.Ok

namespace State.Ok

variable {pool after : State}

theorem stop (ok : pool.Ok) : pool.stop.Ok := by
  intro worker mem
  rcases List.mem_map.mp mem with ⟨before, inside, rfl⟩
  exact (ok before inside).stop

theorem join (ok : pool.Ok) (joined : pool.join = some after) : after.Ok := by
  rcases Option.map_eq_some_iff.mp joined with ⟨workers, acted, rfl⟩
  exact (forall_of_mapM acted fun worker other mem made => (ok worker mem).join made).2

theorem next (ok : pool.Ok) (call : Call) : (Pool.next pool call).Ok := by
  cases call with
  | start creates => exact ok_startLoop creates [] pool.workers (by simp) ok
  | stop => exact ok.stop
  | join =>
      simp only [Pool.next]
      cases joined : pool.join with
      | none => exact ok
      | some after => exact ok.join joined
  | submit allocated =>
      simp only [Pool.next, State.submit]
      split <;> exact ok
  | submitTo index allocated =>
      simp only [Pool.next, State.submitTo]
      split
      · split
        · simp only [State.submit]
          split <;> exact ok
        · exact ok
      · exact ok

/-- After the workers were told to stop, joining them returns. -/
theorem stop_join (ok : pool.Ok) : Exists fun after => pool.stop.join = some after ∧
    after.Ok ∧ after.workers.length = pool.workers.length := by
  have returns : forall workers : List Scheduler,
      Exists fun joined => (workers.map Scheduler.stop).mapM Scheduler.join = some joined := by
    intro workers
    induction workers with
    | nil => exact ⟨[], rfl⟩
    | cons worker workers inductionHypothesis =>
        rcases inductionHypothesis with ⟨others, rest⟩
        have first : Exists fun joined => worker.stop.join = some joined := by
          unfold Scheduler.join
          split
          · exact ⟨_, rfl⟩
          · exact ⟨_, rfl⟩
        rcases first with ⟨joined, first⟩
        refine ⟨joined :: others, ?_⟩
        rw [List.map_cons, List.mapM_cons, first, rest]
        rfl
  rcases returns pool.workers with ⟨joined, acted⟩
  have whole : pool.stop.join = some { pool.stop with workers := joined } := by
    simp [State.join, State.stop, acted]
  have every : joined.length = (pool.workers.map Scheduler.stop).length ∧
      forall worker, worker ∈ joined -> True := forall_of_mapM acted fun _ _ _ _ => trivial
  rw [List.length_map] at every
  exact ⟨_, whole, ok.stop.join whole, every.1⟩

theorem destroy (ok : pool.Ok) : Exists fun freed => pool.destroy = some freed ∧
    freed.length = pool.workers.length ∧ forall worker, worker ∈ freed -> TornDown worker.log := by
  unfold State.destroy
  split
  · rcases ok.stop_join with ⟨after, joined, kept, length⟩
    rcases destroy_all kept with ⟨freed, acted, count, torn⟩
    refine ⟨freed, ?_, count.trans length, torn⟩
    rw [joined]
    exact acted
  · exact destroy_all ok

end State.Ok

theorem reachable_ok {pool : State} (reached : lifecycle.Reachable pool) : pool.Ok := by
  refine reached.invariant State.Ok ?_ ?_
  · rintro pool ⟨workerCount, creates, created, _, _⟩
    rcases ok_createPool true workerCount creates with ⟨made, created', ok, _⟩
    rw [created] at created'
    cases created'
    exact ok rfl
  · intro before call _ ok _
    exact ok.next call

/-- The call is no start that returns 0. -/
def Failing (pool : State) (call : Call) : Prop :=
  forall creates, call = .start creates -> (pool.start creates).2 = false

theorem failing_idle {pool : State} (reached : (lifecycle.restrict Failing).Reachable pool) :
    pool.isRunning = false := by
  refine reached.invariant (fun pool => pool.isRunning = false) ?_ ?_
  · rintro pool ⟨_, _, _, _, idle⟩
    exact idle
  · intro before call _ idle enabled
    cases call with
    | start creates =>
        have failed := enabled.2 creates rfl
        change (before.isRunning || (before.start creates).2) = false
        rw [idle, failed]
        rfl
    | stop => rfl
    | join =>
        change (before.join.getD before).isRunning = false
        unfold State.join
        cases before.workers.mapM Scheduler.join <;> exact idle
    | submit allocated =>
        change (before.submit allocated).1.isRunning = false
        simp [State.submit, idle]
    | submitTo index allocated =>
        change (before.submitTo index allocated).1.isRunning = false
        simp [State.submitTo, idle]

/-- Whatever fails, the workers that were created are torn down: by a creation of the pool that
fails, or by destroying the pool after any calls.  As long as no start returned 0, the pool
accepts nothing. -/
theorem poolTeardown :
    (forall allocated workerCount creates, Exists fun made =>
      createPool allocated workerCount creates = some made ∧
        (made.2 = false -> forall worker, worker ∈ made.1 -> TornDown worker.log)) ∧
    (forall pool, lifecycle.Reachable pool -> Exists fun freed => pool.destroy = some freed ∧
      freed.length = pool.workers.length ∧
        forall worker, worker ∈ freed -> TornDown worker.log) ∧
    forall pool, (lifecycle.restrict Failing).Reachable pool -> forall index allocated,
      (pool.submit allocated).2 = false ∧ (pool.submitTo index allocated).2 = false := by
  refine ⟨?_, ?_, ?_⟩
  · intro allocated workerCount creates
    rcases ok_createPool allocated workerCount creates with ⟨made, created, _, torn⟩
    exact ⟨made, created, torn⟩
  · intro pool reached
    exact (reachable_ok reached).destroy
  · intro pool reached index allocated
    have idle := failing_idle reached
    constructor
    · simp [State.submit, idle]
    · simp [State.submitTo, idle]

/-- Two workers, the thread of the second of which cannot be created. -/
theorem poolTeardown_partialStart :
    (Exists fun made => createPool true 2 (fun index => index == 0) = some made ∧
      made.2 = false ∧ forall worker, worker ∈ made.1 -> TornDown worker.log) ∧
    Exists fun pool => lifecycle.Reachable pool ∧ pool.workers.length = 2 ∧
      (Exists fun freed => pool.destroy = some freed ∧ freed.length = pool.workers.length ∧
        forall worker, worker ∈ freed -> TornDown worker.log) ∧
      (pool.submit true).2 = false ∧ (pool.submitTo 1 true).2 = false := by
  have fresh : (lifecycle.restrict Failing).Reachable ⟨[.create, .create], 0, false⟩ :=
    .start ⟨2, fun _ => true, rfl, rfl, rfl⟩
  have failing := fresh.step (show (lifecycle.restrict Failing).enabled _
      (.start fun index => index == 0) by
    refine ⟨trivial, ?_⟩
    rintro creates same
    cases same
    rfl)
  have reached := failing.of_restrict
  rcases poolTeardown.1 true 2 (fun index => index == 0) with ⟨freed, created, torn⟩
  have undone : freed.2 = false := by
    cases created
    rfl
  have idle := poolTeardown.2.2 _ failing
  exact ⟨⟨freed, created, undone, torn undone⟩, _, reached, rfl, poolTeardown.2.1 _ reached,
    (idle 0 true).1, (idle 1 true).2⟩

end Pool
end UfsrvRx
