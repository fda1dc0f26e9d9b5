import UfsrvRx.Transition.Machine

namespace UfsrvRx
namespace Scheduler

/-!
# The single-worker scheduler

The model of one started `UfsrvScheduler`: any number of submitters and
stoppers, the worker thread with its loop and final drain, the thread that
joins it, and the teardown.  Each access to an atomic cell, each queue operation
and each access to the eventfd is one step.  The queue is the linearizable FIFO
of the library below, kept as the list of its jobs, oldest first; the eventfd is
its counter.  The initial state is the one that `UfsrvSchedulerStart` leaves.

A job submitted from inside a running job is an ordinary submission, made
while the worker stands at that job.
-/

/-- A job is named by the `UfsrvSchedulerSubmit` call that allocates it. -/
abbrev JobId := Nat

abbrev CallId := Nat

/-- Program points of `UfsrvSchedulerSubmit` and `sSubmitToScheduler`. -/
inductive SubmitFrame
  | idle
  | allocated
  | checked
  | inserted
  | returned (accepted : Bool)
deriving DecidableEq, Repr

/-- Program points of `sWorkerMain`.  A job is run from the loop or from the
final drain. -/
inductive WorkerFrame
  | looping
  | popping
  | running (job : JobId) (final : Bool)
  | checking
  | reading
  | draining
  | exited
deriving DecidableEq, Repr

/-- Program points of `UfsrvSchedulerStop`. -/
inductive StopFrame
  | idle
  | stored
  | returned
deriving DecidableEq, Repr

/-- Program points of the `UfsrvSchedulerJoin` call that won the exchange.  The
other calls return at once and leave no trace. -/
inductive JoinFrame
  | idle
  | waiting
  | returned
deriving DecidableEq, Repr

/-- Program points of `UfsrvSchedulerDestroy`. -/
inductive DestroyFrame
  | idle
  | stopping
  | signalling
  | joining
  | draining
  | closed
deriving DecidableEq, Repr

/-- `struct UfsrvScheduler` and every call in progress.  The last five fields are
history: the jobs in the order in which they were inserted, started, finished
and dropped by the teardown, and how often the block of each job was freed. -/
structure State where
  queue : List JobId
  eventFd : Nat
  isRunning : Bool
  isStarted : Bool
  isJoined : Bool
  submit : JobId -> SubmitFrame
  worker : WorkerFrame
  stop : CallId -> StopFrame
  join : JoinFrame
  destroy : DestroyFrame
  inserted : List JobId
  started : List JobId
  finished : List JobId
  dropped : List JobId
  freed : JobId -> Nat

inductive Event
  | submitRefused (job : JobId)
  | submitAlloc (job : JobId)
  | submitCheck (job : JobId)
  | submitInsert (job : JobId)
  | submitWrite (job : JobId)
  | workerLoop
  | workerPop
  | workerJobReturned (job : JobId) (final : Bool)
  | workerCheck
  | workerRead
  | workerInterrupted
  | workerDrain
  | stopStore (call : CallId)
  | stopWrite (call : CallId)
  | joinEnter
  | joinReturn
  | destroyEnter
  | destroyStop
  | destroyWrite
  | destroyJoined
  | destroyPop
deriving DecidableEq, Repr

namespace State

/-- `mpsc_queue_insert`. -/
def insert (s : State) (job : JobId) : State :=
  { s with
    queue := s.queue ++ [job]
    inserted := s.inserted ++ [job] }

/-- `mpsc_queue_pop` followed by the call of `sRunJob`, or by the step to `empty`
when there is nothing to run. -/
def popAndRun (s : State) (final : Bool) (empty : WorkerFrame) : State :=
  match s.queue with
  | [] => { s with worker := empty }
  | job :: rest =>
      { s with
        queue := rest
        worker := .running job final
        started := s.started ++ [job] }

/-- The scheduler is used only while its `Destroy` has not begun. -/
def Usable (s : State) : Prop :=
  s.destroy = .idle

/-- No call that could touch the scheduler after its memory is gone. -/
def Unused (s : State) : Prop :=
  (forall job, s.submit job = .idle ∨ Exists fun accepted => s.submit job = .returned accepted) ∧
    (forall call, s.stop call = .idle ∨ s.stop call = .returned) ∧ s.join ≠ .waiting

end State

/-- Before which step each event stands. -/
def enabled (s : State) : Event -> Prop
  | .submitRefused job => s.submit job = .idle ∧ s.Usable
  | .submitAlloc job => s.submit job = .idle ∧ s.Usable
  | .submitCheck job => s.submit job = .allocated
  | .submitInsert job => s.submit job = .checked
  | .submitWrite job => s.submit job = .inserted
  | .workerLoop => s.worker = .looping
  | .workerPop => s.worker = .popping
  | .workerJobReturned job final => s.worker = .running job final
  | .workerCheck => s.worker = .checking
  | .workerRead => s.worker = .reading ∧ 0 < s.eventFd
  | .workerInterrupted => s.worker = .reading
  | .workerDrain => s.worker = .draining
  | .stopStore call => s.stop call = .idle ∧ s.Usable
  | .stopWrite call => s.stop call = .stored
  | .joinEnter => s.Usable ∨ s.destroy = .joining
  | .joinReturn => s.join = .waiting ∧ s.worker = .exited
  | .destroyEnter => s.Usable ∧ s.Unused
  | .destroyStop => s.destroy = .stopping
  | .destroyWrite => s.destroy = .signalling
  | .destroyJoined => s.destroy = .joining ∧ s.join = .returned
  | .destroyPop => s.destroy = .draining

/-- What each event does. -/
def next (s : State) : Event -> State
  | .submitRefused job => { s with submit := Function.update s.submit job (.returned false) }
  | .submitAlloc job => { s with submit := Function.update s.submit job .allocated }
  | .submitCheck job =>
      if s.isRunning then
        { s with submit := Function.update s.submit job .checked }
      else
        { s with
          submit := Function.update s.submit job (.returned false)
          freed := Function.update s.freed job (s.freed job + 1) }
  | .submitInsert job => { s.insert job with submit := Function.update s.submit job .inserted }
  | .submitWrite job =>
      { s with
        eventFd := s.eventFd + 1
        submit := Function.update s.submit job (.returned true) }
  | .workerLoop => { s with worker := if s.isRunning then .popping else .draining }
  | .workerPop => s.popAndRun false .checking
  | .workerJobReturned job final =>
      { s with
        worker := if final then .draining else .looping
        finished := s.finished ++ [job]
        freed := Function.update s.freed job (s.freed job + 1) }
  | .workerCheck => { s with worker := if s.isRunning then .reading else .draining }
  | .workerRead => { s with worker := .looping, eventFd := 0 }
  | .workerInterrupted => { s with worker := .looping }
  | .workerDrain => s.popAndRun true .exited
  | .stopStore call =>
      { s with
        isRunning := false
        stop := Function.update s.stop call .stored }
  | .stopWrite call =>
      { s with
        eventFd := s.eventFd + 1
        stop := Function.update s.stop call .returned }
  | .joinEnter =>
      if s.isStarted ∧ s.isJoined = false then
        { s with
          isJoined := true
          join := .waiting }
      else s
  | .joinReturn => { s with join := .returned }
  | .destroyEnter =>
      { s with destroy := if s.isStarted ∧ s.isJoined = false then .stopping else .draining }
  | .destroyStop =>
      { s with
        isRunning := false
        destroy := .signalling }
  | .destroyWrite =>
      { s with
        eventFd := s.eventFd + 1
        destroy := .joining }
  | .destroyJoined => { s with destroy := .draining }
  | .destroyPop =>
      match s.queue with
      | [] => { s with destroy := .closed }
      | job :: rest =>
          { s with
            queue := rest
            dropped := s.dropped ++ [job]
            freed := Function.update s.freed job (s.freed job + 1) }

/-- The worker thread has been created and `UfsrvSchedulerStart` has returned. -/
def start : State where
  queue := []
  eventFd := 0
  isRunning := true
  isStarted := true
  isJoined := false
  submit := fun _ => .idle
  worker := .looping
  stop := fun _ => .idle
  join := .idle
  destroy := .idle
  inserted := []
  started := []
  finished := []
  dropped := []
  freed := fun _ => 0

/-- The scheduler as a machine. -/
def machine : Transition.Machine State Event where
  initial := fun s => s = start
  enabled := enabled
  next := next

/-! ## Reachable states -/

namespace WorkerFrame

@[simp] def current : WorkerFrame -> List JobId
  | running job _ => [job]
  | looping | popping | checking | reading | draining | exited => []

/-- The worker has seen the flag cleared. -/
@[simp] def leaving : WorkerFrame -> Bool
  | running _ final => final
  | draining | exited => true
  | looping | popping | checking | reading => false

end WorkerFrame

/-- Every inserted job is in the queue, on the worker, finished or dropped, in
that order, and a job is inserted once, by its own submission. -/
structure Accounted (s : State) : Prop where
  order : s.inserted = s.started ++ s.dropped ++ s.queue
  progress : s.started = s.finished ++ s.worker.current
  once : s.inserted.Nodup
  submitted : forall job, job ∈ s.inserted ↔
    s.submit job = .inserted ∨ s.submit job = .returned true
  leaving : s.worker.leaving = true -> s.isRunning = false
  joined : s.join = .returned -> s.worker = .exited
  joining : s.isJoined = true ↔ s.join ≠ .idle
  begun : s.isStarted = true
  teardown : s.destroy = .draining ∨ s.destroy = .closed -> s.join = .returned
  kept : s.dropped ≠ [] -> s.destroy = .draining ∨ s.destroy = .closed

namespace Accounted

variable {s : State}

/-- A submission moves on without inserting. -/
theorem resubmit (ok : Accounted s) (job : JobId) {frame : SubmitFrame}
    (same : (frame = .inserted ∨ frame = .returned true) ↔
      (s.submit job = .inserted ∨ s.submit job = .returned true)) (other : JobId) :
    other ∈ s.inserted ↔ Function.update s.submit job frame other = .inserted ∨
      Function.update s.submit job frame other = .returned true := by
  rw [ok.submitted other]
  by_cases mine : other = job
  · subst other
    simpa only [Function.update_self] using same.symm
  · simp only [Function.update_of_ne mine]

theorem insert (ok : Accounted s) {job : JobId} (checked : s.submit job = .checked) :
    Accounted (next s (.submitInsert job)) := by
  have fresh : job ∉ s.inserted := by
    rw [ok.submitted job, checked]
    simp
  refine { ok with order := ?_, once := ?_, submitted := ?_ }
  · simp only [next, State.insert, ok.order, List.append_assoc]
  · exact List.nodup_append.mpr ⟨ok.once, by simp, by grind⟩
  · intro other
    have before := ok.submitted other
    simp only [next, State.insert, List.mem_append, List.mem_singleton]
    by_cases mine : other = job
    · subst other
      simp
    · simp only [Function.update_of_ne mine, mine, or_false, before]

theorem unjoined (ok : Accounted s) (alive : s.worker ≠ .exited) : s.join ≠ .returned :=
  fun returned => alive (ok.joined returned)

/-- The worker moves between two points at which it runs no job. -/
theorem turn (ok : Accounted s) (frame : WorkerFrame) (current : s.worker.current = [])
    (alive : s.worker ≠ .exited) (quiet : frame.current = [])
    (leaving : frame.leaving = true -> s.isRunning = false) :
    Accounted { s with worker := frame } := by
  have progress := ok.progress
  rw [current] at progress
  refine { ok with progress := ?_, leaving := leaving, joined := ?_ }
  · simpa only [quiet] using progress
  · intro returned
    exact absurd returned (ok.unjoined alive)

theorem popAndRun (ok : Accounted s) (final : Bool) {empty : WorkerFrame}
    (current : s.worker.current = []) (alive : s.worker ≠ .exited)
    (quiet : empty.current = []) (leaving : s.worker.leaving = final)
    (before : empty.leaving = final) : Accounted (s.popAndRun final empty) := by
  have unjoined := ok.unjoined alive
  have whole : s.dropped = [] := by
    by_contra some
    exact unjoined (ok.teardown (ok.kept some))
  have progress := ok.progress
  rw [current, List.append_nil] at progress
  unfold State.popAndRun
  split
  next nothing =>
      refine ok.turn _ current alive quiet ?_
      intro left
      exact ok.leaving (by rw [leaving, <- before, left])
  next job rest queued =>
      refine { ok with order := ?_, progress := ?_, leaving := ?_, joined := ?_ }
      · have order := ok.order
        rw [queued, whole] at order
        simp only [whole, order, List.append_assoc, List.nil_append, List.singleton_append]
      · simp only [WorkerFrame.current, progress]
      · intro left
        exact ok.leaving (by rw [leaving]; exact left)
      · intro returned
        exact absurd returned unjoined

theorem next (ok : Accounted s) {event : Event} (may : enabled s event) :
    Accounted (Scheduler.next s event) := by
  cases event with
  | submitRefused job =>
      have idle : s.submit job = .idle := may.1
      exact { ok with submitted := ok.resubmit job (by simp [idle]) }
  | submitAlloc job =>
      have idle : s.submit job = .idle := may.1
      exact { ok with submitted := ok.resubmit job (by simp [idle]) }
  | submitCheck job =>
      have allocated : s.submit job = .allocated := may
      simp only [Scheduler.next]
      split
      · exact { ok with submitted := ok.resubmit job (by simp [allocated]) }
      · exact { ok with submitted := ok.resubmit job (by simp [allocated]) }
  | submitInsert job => exact ok.insert may
  | submitWrite job =>
      have inserted : s.submit job = .inserted := may
      exact { ok with submitted := ok.resubmit job (by simp [inserted]) }
  | workerLoop =>
      have looping : s.worker = .looping := may
      refine ok.turn _ (by simp [looping]) (by simp [looping]) ?_ ?_
      · split <;> rfl
      · split <;> simp_all
  | workerPop =>
      have popping : s.worker = .popping := may
      exact ok.popAndRun false (by simp [popping]) (by simp [popping]) rfl (by simp [popping]) rfl
  | workerJobReturned job final =>
      have running : s.worker = .running job final := may
      have progress := ok.progress
      have leaving := ok.leaving
      rw [running] at progress leaving
      refine { ok with progress := ?_, leaving := ?_, joined := ?_ }
      · simp only [Scheduler.next]
        cases final <;> simpa using progress
      · simp only [Scheduler.next]
        cases final with
        | false => simp
        | true => exact leaving
      · intro returned
        have exited := ok.joined returned
        simp [running] at exited
  | workerCheck =>
      have checking : s.worker = .checking := may
      refine ok.turn _ (by simp [checking]) (by simp [checking]) ?_ ?_
      · split <;> rfl
      · split <;> simp_all
  | workerRead =>
      have reading : s.worker = .reading := may.1
      exact { ok.turn .looping (by simp [reading]) (by simp [reading]) rfl (by simp) with }
  | workerInterrupted =>
      have reading : s.worker = .reading := may
      exact ok.turn _ (by simp [reading]) (by simp [reading]) rfl (by simp)
  | workerDrain =>
      have draining : s.worker = .draining := may
      exact ok.popAndRun true (by simp [draining]) (by simp [draining]) rfl (by simp [draining])
        rfl
  | stopStore call => exact { ok with leaving := fun _ => rfl }
  | stopWrite call => exact { ok with }
  | joinEnter =>
      simp only [Scheduler.next]
      split
      next fresh =>
          have unjoined : s.join = .idle := by
            by_contra entered
            have joined := ok.joining.mpr entered
            simp [fresh.2] at joined
          refine { ok with joined := ?_, joining := ?_, teardown := ?_ }
          · intro returned
            cases returned
          · simp
          · intro draining
            have returned := ok.teardown draining
            simp [unjoined] at returned
      next => exact ok
  | joinReturn =>
      have waiting : s.join = .waiting := may.1
      refine { ok with joined := fun _ => may.2, joining := ?_, teardown := fun _ => rfl }
      have joining := ok.joining
      simpa [waiting, Scheduler.next] using joining
  | destroyEnter =>
      have usable : s.destroy = .idle := may.1
      have whole : s.dropped = [] := by
        by_contra some
        have draining := ok.kept some
        simp [usable] at draining
      refine { ok with teardown := ?_, kept := ?_ }
      · simp only [Scheduler.next]
        split
        · simp
        next entered =>
            intro _
            have joined : s.isJoined = true := by simpa [ok.begun] using entered
            have notIdle := ok.joining.mp joined
            have notWaiting := may.2.2.2
            change s.join = .returned
            cases frame : s.join <;> simp_all
      · intro some
        exact absurd whole some
  | destroyStop =>
      have stopping : s.destroy = .stopping := may
      refine { ok with leaving := fun _ => rfl, teardown := ?_, kept := ?_ }
      · simp [Scheduler.next]
      · intro some
        have draining := ok.kept some
        simp [stopping] at draining
  | destroyWrite =>
      have signalling : s.destroy = .signalling := may
      refine { ok with teardown := ?_, kept := ?_ }
      · simp [Scheduler.next]
      · intro some
        have draining := ok.kept some
        simp [signalling] at draining
  | destroyJoined =>
      exact { ok with teardown := fun _ => may.2, kept := fun _ => Or.inl rfl }
  | destroyPop =>
      have draining : s.destroy = .draining := may
      have returned := ok.teardown (Or.inl draining)
      simp only [Scheduler.next]
      split
      next nothing => exact { ok with teardown := fun _ => returned, kept := fun _ => Or.inr rfl }
      next job rest queued =>
          refine { ok with order := ?_, kept := fun _ => Or.inl draining }
          have order := ok.order
          rw [queued] at order
          simp only [order, List.append_assoc, List.singleton_append]

end Accounted

theorem accounted_start : Accounted start := by
  constructor <;> simp [start]

theorem reachable_accounted {s : State} (reached : machine.Reachable s) : Accounted s := by
  refine reached.invariant _ ?_ ?_
  · intro s initial
    rw [show s = start from initial]
    exact accounted_start
  · intro s event _ ok may
    exact ok.next may

/-- No submission overlaps the teardown. -/
theorem reachable_unsubmitted {s : State} (reached : machine.Reachable s) (torn : s.destroy ≠ .idle)
    (job : JobId) : s.submit job = .idle ∨ Exists fun accepted => s.submit job = .returned accepted := by
  revert job
  revert torn
  refine reached.invariant (fun s => s.destroy ≠ .idle -> forall job,
    s.submit job = .idle ∨ Exists fun accepted => s.submit job = .returned accepted) ?_ ?_
  · intro s initial torn
    rw [show s = start from initial] at torn
    exact absurd rfl torn
  · intro s event _ ok may
    have refuse {frame : SubmitFrame} (job : JobId) (busy : s.submit job = frame)
        (here : frame ≠ .idle ∧ forall accepted, frame ≠ .returned accepted) : s.destroy = .idle := by
      by_contra torn
      rcases ok torn job with idle | ⟨accepted, returned⟩
      · exact here.1 (busy.symm.trans idle)
      · exact here.2 accepted (busy.symm.trans returned)
    cases event with
    | submitRefused job => exact fun torn => absurd may.2 torn
    | submitAlloc job => exact fun torn => absurd may.2 torn
    | submitCheck job =>
        have usable := refuse job may (by simp)
        intro torn
        simp only [machine, next] at torn
        split at torn <;> exact absurd usable torn
    | submitInsert job => exact fun torn => absurd (refuse job may (by simp)) torn
    | submitWrite job => exact fun torn => absurd (refuse job may (by simp)) torn
    | workerPop =>
        unfold machine next State.popAndRun
        simp only
        split <;> exact ok
    | workerDrain =>
        unfold machine next State.popAndRun
        simp only
        split <;> exact ok
    | joinEnter =>
        unfold machine next
        simp only
        split <;> exact ok
    | destroyEnter => exact fun _ => may.2.1
    | destroyStop => exact fun _ => ok (by rw [show s.destroy = .stopping from may]; simp)
    | destroyWrite => exact fun _ => ok (by rw [show s.destroy = .signalling from may]; simp)
    | destroyJoined => exact fun _ => ok (by rw [may.1]; simp)
    | destroyPop =>
        have torn := ok (by rw [show s.destroy = .draining from may]; simp)
        unfold machine next
        simp only
        split <;> exact fun _ => torn
    | workerLoop => exact ok
    | workerJobReturned job final => exact ok
    | workerCheck => exact ok
    | workerRead => exact ok
    | workerInterrupted => exact ok
    | stopStore call => exact ok
    | stopWrite call => exact ok
    | joinReturn => exact ok

end Scheduler
end UfsrvRx
