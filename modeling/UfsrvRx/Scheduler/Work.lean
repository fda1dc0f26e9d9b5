import UfsrvRx.Transition.Potential
import UfsrvRx.Scheduler.Ledger
import UfsrvRx.Scheduler.Wakeup

namespace UfsrvRx
namespace Scheduler

/-!
# The work of the worker

The worker goes round its loop three times as often as there are jobs at most, and once for each
write to the eventfd or interrupted read: it never spins.  When nobody is about to write to the
eventfd, the worker comes to rest by itself, and has finished every job by then.
-/

/-! ## What the worker still does -/

/-- The steps up to the read, or to the end, when nothing is in the queue. -/
def WorkerFrame.remaining : WorkerFrame -> Nat
  | running _ false => 5
  | looping => 4
  | popping => 3
  | checking | running _ true => 2
  | draining => 1
  | reading | exited => 0

/-- A job takes three steps, and a wake-up five. -/
def State.potential (s : State) : Nat :=
  3 * s.queue.length + 5 * min s.eventFd 1 + s.worker.remaining

/-- What an event makes the worker do. -/
def Event.charge : Event -> Nat
  | submitInsert _ => 3
  | submitWrite _ | stopWrite _ | destroyWrite | workerInterrupted => 5
  | _ => 0

theorem potential_popAndRun (s : State) (final : Bool) {empty : WorkerFrame}
    (running : forall job, (WorkerFrame.running job final).remaining < 3 + s.worker.remaining)
    (shorter : empty.remaining < s.worker.remaining) :
    (s.popAndRun final empty).potential < s.potential := by
  unfold State.popAndRun
  split
  next nothing =>
      simp only [State.potential]
      omega
  next job rest queued =>
      have runs := running job
      simp only [State.potential, queued, List.length_cons]
      omega

/-- Each event is paid for. -/
theorem potential_next {s : State} {event : Event} (may : enabled s event) :
    event.onWorker.toNat + (next s event).potential ≤ s.potential + event.charge := by
  cases event with
  | submitInsert job =>
      simp [next, State.insert, State.potential, Event.onWorker, Event.charge]
      omega
  | submitWrite job | stopWrite call | destroyWrite =>
      simp only [next, State.potential, Event.onWorker, Event.charge, Bool.toNat_false]
      omega
  | submitCheck job =>
      simp only [next]
      split <;> exact Nat.le_of_eq (Nat.zero_add _)
  | joinEnter =>
      simp only [next]
      split <;> exact Nat.le_of_eq (Nat.zero_add _)
  | destroyPop =>
      simp only [next]
      split
      · exact Nat.le_of_eq (Nat.zero_add _)
      next job rest queued =>
          simp only [State.potential, queued, List.length_cons, Event.onWorker, Bool.toNat_false]
          omega
  | workerPop =>
      have popping : s.worker = .popping := may
      have shorter : (s.popAndRun false .checking).potential < s.potential := potential_popAndRun _ _
        (by simp [popping, WorkerFrame.remaining]) (by simp [popping, WorkerFrame.remaining])
      simp only [next, Event.onWorker, Bool.toNat_true]
      omega
  | workerDrain =>
      have draining : s.worker = .draining := may
      have shorter : (s.popAndRun true .exited).potential < s.potential := potential_popAndRun _ _
        (by simp [draining, WorkerFrame.remaining]) (by simp [draining, WorkerFrame.remaining])
      simp only [next, Event.onWorker, Bool.toNat_true]
      omega
  | workerLoop =>
      have looping : s.worker = .looping := may
      simp only [next, State.potential, looping, Event.onWorker, Bool.toNat_true]
      cases s.isRunning <;> simp [WorkerFrame.remaining] <;> omega
  | workerCheck =>
      have checking : s.worker = .checking := may
      simp only [next, State.potential, checking, Event.onWorker, Bool.toNat_true]
      cases s.isRunning <;> simp [WorkerFrame.remaining] <;> omega
  | workerJobReturned job final =>
      have running : s.worker = .running job final := may
      cases final <;>
        simp only [next, State.potential, running, Event.onWorker, Bool.toNat_true,
          WorkerFrame.remaining, if_true, if_false, Bool.false_eq_true] <;> omega
  | workerRead =>
      have reading : s.worker = .reading := may.1
      have written : 0 < s.eventFd := may.2
      simp only [next, State.potential, reading, Event.onWorker, Bool.toNat_true,
        WorkerFrame.remaining]
      omega
  | workerInterrupted =>
      have reading : s.worker = .reading := may
      simp only [next, State.potential, reading, Event.onWorker, Bool.toNat_true, Event.charge,
        WorkerFrame.remaining]
      omega
  | submitRefused job | submitAlloc job | stopStore call | joinReturn | destroyEnter | destroyStop
  | destroyJoined => exact Nat.le_of_eq (Nat.zero_add _)

/-- In every run the worker takes three steps for an inserted job at most, five for a write to the
eventfd or an interrupted read, and four more. -/
theorem workerNeverSpins {s : State} {events : List Event} (run : machine.Run start events s) :
    events.countP Event.onWorker ≤ 4 + (events.map Event.charge).sum := by
  have paid := run.amortised State.potential Event.onWorker Event.charge
    (fun _ _ _ => potential_next) (.start rfl)
  have first : start.potential = 4 := rfl
  omega

/-- Two jobs are submitted before the worker looks at the flag, and it goes to sleep at last. -/
def runTwo : List Event :=
  [.submitAlloc 0, .submitCheck 0, .submitInsert 0, .submitAlloc 1, .submitCheck 1, .submitInsert 1,
    .submitWrite 0, .workerLoop, .workerPop, .workerJobReturned 0 false, .workerLoop, .workerPop,
    .workerJobReturned 1 false, .submitWrite 1, .workerLoop, .workerPop, .workerCheck, .workerRead,
    .workerLoop, .workerPop, .workerCheck]

theorem workerNeverSpins_runTwo : runTwo.countP Event.onWorker ≤ 20 := by
  have may : machine.AllEnabled start runTwo := by
    repeat' first | exact trivial | exact rfl | decide | apply And.intro
  exact workerNeverSpins may.run

/-! ## The worker comes to rest -/

/-- The worker has finished all jobs and sleeps, or has come to its end. -/
structure State.AtRest (s : State) : Prop where
  finished : s.finished = s.inserted
  rests : s.worker = .exited ∨ s.worker = .reading ∧ s.eventFd = 0 ∧ s.isRunning = true

/-- Nobody is about to write to the eventfd, and no job was left behind. -/
structure State.Ready (s : State) : Prop where
  quiet : ¬s.Signalling
  undropped : s.dropped = []
  exited : s.worker = .exited -> s.queue = []

/-- A worker that sleeps while nobody is about to write has nothing to do. -/
theorem asleep {s : State} (announced : Announced s) (quiet : ¬s.Signalling)
    (reading : s.worker = .reading) (zero : s.eventFd = 0) :
    s.queue = [] ∧ s.isRunning = true := by
  constructor
  · by_contra queued
    rcases announced.queued (.inr reading) queued with written | inserting
    · omega
    · exact quiet (.inl inserting)
  · by_contra off
    rcases announced.stopped reading (by simpa using off) with written | stopping
    · omega
    · exact quiet (.inr stopping)

/-- What the worker does next. -/
def turn (s : State) : Event :=
  match s.worker with
  | .looping => .workerLoop
  | .popping => .workerPop
  | .running job final => .workerJobReturned job final
  | .checking => .workerCheck
  | .reading => .workerRead
  | .draining | .exited => .workerDrain

theorem finished_of_idle {s : State} (accounted : Accounted s) (undropped : s.dropped = [])
    (queue : s.queue = []) (idle : s.worker.current = []) : s.finished = s.inserted := by
  rw [accounted.order, accounted.progress, undropped, queue, idle]
  simp

/-- The worker moves without dropping a job. -/
theorem State.Ready.move {s after : State} (ready : s.Ready) (submit : after.submit = s.submit)
    (stop : after.stop = s.stop) (destroy : after.destroy = s.destroy)
    (dropped : after.dropped = s.dropped) (exited : after.worker = .exited -> after.queue = []) :
    after.Ready := by
  refine ⟨?_, dropped.trans ready.undropped, exited⟩
  simpa only [State.Signalling, submit, stop, destroy] using ready.quiet

theorem State.Ready.popAndRun {s : State} (ready : s.Ready) (final : Bool) (empty : WorkerFrame) :
    (s.popAndRun final empty).Ready := by
  unfold State.popAndRun
  split
  next nothing => exact ready.move rfl rfl rfl rfl fun _ => nothing
  next job rest queued => exact ready.move rfl rfl rfl rfl (by simp)

/-- The worker can go on until it rests. -/
theorem turns {s : State} (reached : machine.Reachable s) (ready : s.Ready) (busy : ¬s.AtRest) :
    enabled s (turn s) ∧ (turn s).onWorker = true ∧ (turn s).charge = 0 ∧
      (next s (turn s)).Ready := by
  have accounted := reachable_accounted reached
  cases frame : s.worker with
  | looping =>
      simp only [turn, frame]
      refine ⟨frame, rfl, rfl, ready.move rfl rfl rfl rfl ?_⟩
      simp only [next]
      split <;> simp
  | popping =>
      simp only [turn, frame]
      exact ⟨frame, rfl, rfl, ready.popAndRun false .checking⟩
  | running job final =>
      simp only [turn, frame]
      refine ⟨frame, rfl, rfl, ready.move rfl rfl rfl rfl ?_⟩
      cases final <;> simp [next]
  | checking =>
      simp only [turn, frame]
      refine ⟨frame, rfl, rfl, ready.move rfl rfl rfl rfl ?_⟩
      simp only [next]
      split <;> simp
  | reading =>
      simp only [turn, frame]
      refine ⟨⟨frame, ?_⟩, rfl, rfl, ready.move rfl rfl rfl rfl (by simp [next])⟩
      rw [Nat.pos_iff_ne_zero]
      intro zero
      rcases asleep (reachable_announced reached) ready.quiet frame zero with ⟨queue, running⟩
      exact busy ⟨finished_of_idle accounted ready.undropped queue (by simp [frame]),
        .inr ⟨frame, zero, running⟩⟩
  | draining =>
      simp only [turn, frame]
      exact ⟨frame, rfl, rfl, ready.popAndRun true .exited⟩
  | exited =>
      exact absurd ⟨finished_of_idle accounted ready.undropped (ready.exited frame)
        (by simp [frame]), .inl frame⟩ busy

/-- Whenever nobody is about to write to the eventfd, the worker comes to rest by itself in a
bounded number of steps, unless it has come to its end before, and has finished all jobs then. -/
theorem comesToRest {s : State} (reached : machine.Reachable s) (quiet : ¬s.Signalling)
    (alive : s.worker ≠ .exited) :
    Exists fun events => Exists fun last => machine.Run s events last ∧
      events.length ≤ s.potential ∧ (forall event, event ∈ events -> event.onWorker = true) ∧
        last.AtRest := by
  have accounted := reachable_accounted reached
  have undropped : s.dropped = [] := by
    by_contra some
    exact alive (accounted.joined (accounted.teardown (accounted.kept some)))
  have ready : s.Ready := ⟨quiet, undropped, fun exited => absurd exited alive⟩
  have lowers : forall s, machine.Reachable s -> s.Ready -> ¬s.AtRest ->
      Exists fun event => Event.onWorker event = true ∧ machine.enabled s event ∧
        (machine.next s event).Ready ∧ (machine.next s event).potential < s.potential := by
    intro s reached ready busy
    rcases turns reached ready busy with ⟨may, mine, free, stays⟩
    have paid := potential_next may
    rw [mine, free, Bool.toNat_true] at paid
    have less : (next s (turn s)).potential < s.potential := by omega
    exact ⟨turn s, mine, may, stays, less⟩
  rcases reached.settles State.potential State.Ready State.AtRest (Event.onWorker · = true)
    lowers ready with ⟨events, last, run, bound, mine, _, rests⟩
  exact ⟨events, last, run, bound, mine, rests⟩

end Scheduler
end UfsrvRx
