import UfsrvRx.Scheduler.Wakeup

namespace UfsrvRx
namespace Scheduler

/-!
# Job order and job memory

The block of a job is in one place at a time: with its submitter, in the queue or on
the worker.  Every step that takes it out of all of them frees it.
-/

namespace SubmitFrame

/-- The submitter has the block. -/
@[simp] def holds : SubmitFrame -> Nat
  | allocated | checked => 1
  | idle | inserted | returned _ => 0

end SubmitFrame

/-- In how many places the block of a job is. -/
def State.live (s : State) (job : JobId) : Nat :=
  (s.submit job).holds + s.queue.count job + s.worker.current.count job

theorem update_holds {submit : JobId -> SubmitFrame} (other : JobId) {frame : SubmitFrame}
    (job : JobId) : (Function.update submit other frame job).holds =
      if job = other then frame.holds else (submit job).holds := by
  by_cases mine : job = other
  · subst job
    simp
  · simp [mine]

theorem update_freed {freed : JobId -> Nat} (other : JobId) (job : JobId) :
    Function.update freed other (freed other + 1) job = freed job + if job = other then 1 else 0 := by
  by_cases mine : job = other
  · subst job
    simp
  · simp [mine]

theorem count_single (other job : JobId) : [other].count job = if job = other then 1 else 0 := by
  by_cases mine : job = other
  · subst job
    simp
  · simp [mine, Ne.symm mine]

namespace State

variable {s : State}

/-- A submission moves on and takes or gives up the block. -/
theorem live_submit (other job : JobId) {frame : SubmitFrame} {freed : JobId -> Nat} :
    live { s with submit := Function.update s.submit other frame, freed := freed } job +
        (if job = other then (s.submit other).holds else 0) =
      s.live job + if job = other then frame.holds else 0 := by
  simp only [live, update_holds]
  by_cases mine : job = other
  · subst job
    simp only [if_true]
    omega
  · simp only [if_neg mine]

/-- The worker takes the next job off the queue. -/
theorem live_popAndRun (final : Bool) {empty : WorkerFrame} (current : s.worker.current = [])
    (quiet : empty.current = []) (job : JobId) : (s.popAndRun final empty).live job = s.live job := by
  unfold popAndRun
  split
  next nothing =>
    simp only [live]
    rw [current, quiet]
  next other rest queued =>
    simp only [live]
    rw [current, queued, <- List.singleton_append, List.count_append]
    simp only [WorkerFrame.current, List.count_nil]
    omega

theorem freed_popAndRun (final : Bool) {empty : WorkerFrame} :
    (s.popAndRun final empty).freed = s.freed := by
  unfold popAndRun
  split <;> rfl

end State

/-- One step allocates the block of a job, moves it, or frees it. -/
theorem live_next {s : State} {event : Event} (may : enabled s event) (job : JobId) :
    (next s event).freed job + (next s event).live job =
      s.freed job + s.live job + if event = .submitAlloc job then 1 else 0 := by
  cases event with
  | submitRefused other =>
      have idle : s.submit other = .idle := may.1
      have moved := @State.live_submit s other job (.returned false) s.freed
      simp only [idle, SubmitFrame.holds, ite_self, Nat.add_zero] at moved
      simpa [next] using moved
  | submitAlloc other =>
      have idle : s.submit other = .idle := may.1
      have moved := @State.live_submit s other job .allocated s.freed
      simp only [idle, SubmitFrame.holds, ite_self, Nat.add_zero] at moved
      simp only [next, moved, Event.submitAlloc.injEq, eq_comm]
      omega
  | submitCheck other =>
      have allocated : s.submit other = .allocated := may
      simp only [next]
      split
      · have moved := @State.live_submit s other job .checked s.freed
        simp only [allocated, SubmitFrame.holds] at moved
        simp only [reduceCtorEq, if_false]
        omega
      · have moved := @State.live_submit s other job (.returned false)
          (Function.update s.freed other (s.freed other + 1))
        simp only [allocated, SubmitFrame.holds, ite_self] at moved
        simp only [update_freed, reduceCtorEq, if_false]
        omega
  | submitInsert other =>
      have checked : s.submit other = .checked := may
      have moved := @State.live_submit s other job .inserted s.freed
      simp only [checked, SubmitFrame.holds, ite_self, Nat.add_zero] at moved
      have queued : (next s (.submitInsert other)).live job =
          State.live { s with submit := Function.update s.submit other .inserted } job +
            if job = other then 1 else 0 := by
        simp only [next, State.insert, State.live, List.count_append, count_single]
        omega
      rw [queued]
      change s.freed job + _ = _
      simp only [reduceCtorEq, if_false]
      omega
  | submitWrite other =>
      have inserted : s.submit other = .inserted := may
      have moved := @State.live_submit s other job (.returned true) s.freed
      simp only [inserted, SubmitFrame.holds, ite_self, Nat.add_zero] at moved
      simpa [next, State.live] using moved
  | workerLoop =>
      have looping : s.worker = .looping := may
      simp only [next, State.live, looping]
      split <;> simp
  | workerPop =>
      have popping : s.worker = .popping := may
      simp only [next, State.freed_popAndRun, reduceCtorEq, if_false, Nat.add_zero]
      rw [State.live_popAndRun false (by rw [popping]; rfl) rfl]
  | workerJobReturned other final =>
      have running : s.worker = .running other final := may
      have quiet : (if final then WorkerFrame.draining else .looping).current = [] := by
        cases final <;> rfl
      have current : s.worker.current = [other] := by rw [running]; rfl
      simp only [next, State.live, update_freed, reduceCtorEq, if_false]
      rw [quiet, current, count_single, List.count_nil]
      omega
  | workerCheck =>
      have checking : s.worker = .checking := may
      simp only [next, State.live, checking]
      split <;> simp
  | workerRead =>
      have reading : s.worker = .reading := may.1
      simp [next, State.live, reading]
  | workerInterrupted =>
      have reading : s.worker = .reading := may
      simp [next, State.live, reading]
  | workerDrain =>
      have draining : s.worker = .draining := may
      simp only [next, State.freed_popAndRun, reduceCtorEq, if_false, Nat.add_zero]
      rw [State.live_popAndRun true (by rw [draining]; rfl) rfl]
  | joinEnter =>
      simp only [next]
      split <;> rfl
  | destroyPop =>
      simp only [next]
      split
      · rfl
      next other rest queued =>
        simp only [State.live, update_freed, queued, reduceCtorEq, if_false]
        rw [<- List.singleton_append, List.count_append, count_single]
        omega
  | _ => rfl

theorem live_run {first last : State} {events : List Event} (run : machine.Run first events last)
    (job : JobId) : last.freed job + last.live job =
      first.freed job + first.live job + events.count (.submitAlloc job) := by
  induction run with
  | done s => simp
  | @step s event events last may _ inductionHypothesis =>
      have step := live_next may job
      rw [inductionHypothesis, List.count_cons]
      change (next s event).freed job + (next s event).live job + _ = _
      rw [step]
      by_cases mine : event = .submitAlloc job
      · simp only [mine, if_true, beq_self_eq_true]
        omega
      · have other : (event == .submitAlloc job) = false := by simpa using mine
        simp only [mine, other, if_false, Bool.false_eq_true]
        omega

/-! ## One allocation, one owner -/

theorem submit_idle_next {s : State} {event : Event} {job : JobId}
    (idle : (next s event).submit job = .idle) :
    s.submit job = .idle ∧ event ≠ .submitAlloc job := by
  have moved (other : JobId) {frame : SubmitFrame} (busy : frame ≠ .idle)
      (update : (next s event).submit = Function.update s.submit other frame) :
      s.submit job = .idle ∧ job ≠ other := by
    rw [update] at idle
    have apart : job ≠ other := by
      rintro rfl
      rw [Function.update_self] at idle
      exact busy idle
    rw [Function.update_of_ne apart] at idle
    exact ⟨idle, apart⟩
  cases event with
  | submitAlloc other =>
      have before := moved other (by simp) rfl
      exact ⟨before.1, by simp [Ne.symm before.2]⟩
  | submitRefused other => exact ⟨(moved other (by simp) rfl).1, by simp⟩
  | submitCheck other =>
      by_cases running : s.isRunning = true
      · exact ⟨(@moved other .checked (by simp) (by simp [next, running])).1, by simp⟩
      · exact ⟨(@moved other (.returned false) (by simp) (by simp [next, running])).1, by simp⟩
  | submitInsert other => exact ⟨(moved other (by simp) rfl).1, by simp⟩
  | submitWrite other => exact ⟨(moved other (by simp) rfl).1, by simp⟩
  | workerPop =>
      refine ⟨?_, by simp⟩
      simp only [next, State.popAndRun] at idle
      split at idle <;> exact idle
  | workerDrain =>
      refine ⟨?_, by simp⟩
      simp only [next, State.popAndRun] at idle
      split at idle <;> exact idle
  | joinEnter =>
      refine ⟨?_, by simp⟩
      simp only [next] at idle
      split at idle <;> exact idle
  | destroyPop =>
      refine ⟨?_, by simp⟩
      simp only [next] at idle
      split at idle <;> exact idle
  | _ => exact ⟨idle, by simp⟩

theorem allocated_once {first last : State} {events : List Event}
    (run : machine.Run first events last) (job : JobId) :
    events.count (.submitAlloc job) ≤ if first.submit job = .idle then 1 else 0 := by
  induction run with
  | done s => simp
  | @step s event events last may _ inductionHypothesis =>
      change events.count _ ≤ if (next s event).submit job = .idle then 1 else 0
        at inductionHypothesis
      rw [List.count_cons]
      by_cases mine : event = .submitAlloc job
      · subst mine
        have before : s.submit job = .idle := may.1
        have after : (next s (.submitAlloc job)).submit job ≠ .idle := by simp [next]
        rw [if_neg after] at inductionHypothesis
        rw [if_pos before]
        simp only [beq_self_eq_true, if_true]
        omega
      · have other : (event == .submitAlloc job) = false := by simpa using mine
        rw [other]
        by_cases after : (next s event).submit job = .idle
        · rw [if_pos after] at inductionHypothesis
          rw [if_pos (submit_idle_next after).1]
          simpa using inductionHypothesis
        · rw [if_neg after] at inductionHypothesis
          simp only [Bool.false_eq_true, if_false]
          omega

/-! ## Who frees a block -/

/-- A block that its submitter has not freed was freed after its callback or by the
teardown. -/
def Freed (s : State) : Prop :=
  forall job, s.submit job ≠ .returned false ->
    s.freed job = s.finished.count job + s.dropped.count job

theorem freed_resubmit {s : State} (ok : Freed s) (other : JobId) {frame : SubmitFrame}
    {freed : JobId -> Nat} (before : s.submit other ≠ .returned false)
    (same : forall job, job ≠ other ∨ frame ≠ .returned false -> freed job = s.freed job) :
    Freed { s with submit := Function.update s.submit other frame, freed := freed } := by
  intro job kept
  by_cases mine : job = other
  · subst job
    have unrefused : frame ≠ .returned false := by simpa using kept
    exact (same other (Or.inr unrefused)).trans (ok other before)
  · have unrefused : s.submit job ≠ .returned false := by simpa [mine] using kept
    exact (same job (Or.inl mine)).trans (ok job unrefused)

theorem freed_next {s : State} (ok : Freed s) {event : Event} (may : enabled s event) :
    Freed (next s event) := by
  cases event with
  | submitRefused other =>
      exact freed_resubmit ok other (by simp [show s.submit other = _ from may.1]) fun _ _ => rfl
  | submitAlloc other =>
      exact freed_resubmit ok other (by simp [show s.submit other = _ from may.1]) fun _ _ => rfl
  | submitCheck other =>
      have allocated : s.submit other ≠ .returned false := by
        simp [show s.submit other = _ from may]
      simp only [next]
      split
      · exact freed_resubmit ok other allocated fun _ _ => rfl
      · refine freed_resubmit ok other allocated ?_
        rintro job (apart | absurd)
        · exact Function.update_of_ne apart ..
        · simp at absurd
  | submitInsert other =>
      have moved := @freed_resubmit s ok other .inserted s.freed
        (by simp [show s.submit other = _ from may]) fun _ _ => rfl
      exact moved
  | submitWrite other =>
      have moved := @freed_resubmit s ok other (.returned true) s.freed
        (by simp [show s.submit other = _ from may]) fun _ _ => rfl
      exact moved
  | workerPop =>
      simp only [next, State.popAndRun]
      split <;> exact ok
  | workerDrain =>
      simp only [next, State.popAndRun]
      split <;> exact ok
  | workerJobReturned other final =>
      intro job kept
      simp only [next, update_freed, List.count_append, count_single, ok job kept]
      omega
  | joinEnter =>
      simp only [next]
      split <;> exact ok
  | destroyPop =>
      simp only [next]
      split
      · exact ok
      · intro job kept
        simp only [update_freed, List.count_append, count_single, ok job kept]
        omega
  | _ => exact ok

theorem reachable_freed {s : State} (reached : machine.Reachable s) : Freed s := by
  refine reached.invariant _ ?_ ?_
  · intro s initial
    rw [show s = start from initial]
    simp [Freed, start]
  · exact fun s event _ ok may => freed_next ok may

/-- The teardown leaves the queue empty. -/
theorem closed_queue {s : State} (reached : machine.Reachable s) (closed : s.destroy = .closed) :
    s.queue = [] := by
  induction reached with
  | start initial =>
      rw [show _ = start from initial] at closed
      cases closed
  | @step s event reached may inductionHypothesis =>
      change (next s event).destroy = .closed at closed
      change (next s event).queue = []
      cases event with
      | submitCheck job =>
          revert closed
          simp only [next]
          split <;> exact inductionHypothesis
      | submitInsert job =>
          have settled := reachable_unsubmitted reached
            (by rw [show s.destroy = _ from closed]; simp) job
          simp [show s.submit job = _ from may] at settled
      | workerPop =>
          revert closed
          simp only [next, State.popAndRun]
          split
          · exact inductionHypothesis
          · simp_all
      | workerDrain =>
          revert closed
          simp only [next, State.popAndRun]
          split
          · exact inductionHypothesis
          · simp_all
      | joinEnter =>
          revert closed
          simp only [next]
          split <;> exact inductionHypothesis
      | destroyEnter =>
          simp only [next] at closed
          split at closed <;> cases closed
      | destroyStop => cases closed
      | destroyWrite => cases closed
      | destroyJoined => cases closed
      | destroyPop =>
          have draining : s.destroy = .draining := may
          revert closed
          simp only [next]
          split
          · exact fun _ => by assumption
          · simp [draining]
      | _ => exact inductionHypothesis closed

/-! ## The contract -/

/-- The step calls a job or frees its block on the worker thread. -/
def Event.onWorker : Event -> Bool
  | .workerLoop | .workerPop | .workerJobReturned _ _ | .workerCheck | .workerRead
  | .workerInterrupted | .workerDrain => true
  | _ => false

/-- Jobs run in the order of their insertion, once and on the worker only, and the block
of a job is freed once, by whoever has it. -/
structure JobContract (events : List Event) (s : State) : Prop where
  order : s.started <+: s.inserted
  progress : s.finished <+: s.started
  once : s.inserted.Nodup
  worker : forall event, enabled s event -> (next s event).started ≠ s.started ->
    event.onWorker = true
  undropped : forall job, job ∈ s.dropped -> job ∉ s.started
  refused : forall job, s.submit job = .returned false ->
    job ∉ s.started ∧ job ∉ s.dropped ∧ s.freed job ≤ 1
  freedBy : forall job, s.submit job ≠ .returned false ->
    s.freed job = s.finished.count job + s.dropped.count job
  balance : forall job, s.freed job + s.live job = events.count (.submitAlloc job)
  allocated : forall job, events.count (.submitAlloc job) ≤ 1
  torn : s.destroy = .closed -> forall job, s.freed job = events.count (.submitAlloc job)

theorem started_next {s : State} {event : Event}
    (changed : (next s event).started ≠ s.started) : event.onWorker = true := by
  cases event with
  | submitCheck job =>
      refine absurd ?_ changed
      simp only [next]
      split <;> rfl
  | joinEnter =>
      refine absurd ?_ changed
      simp only [next]
      split <;> rfl
  | destroyPop =>
      refine absurd ?_ changed
      simp only [next]
      split <;> rfl
  | workerPop => rfl
  | workerDrain => rfl
  | _ => exact absurd rfl changed

theorem jobContract {s : State} {events : List Event} (run : machine.Run start events s) :
    JobContract events s := by
  have reached : machine.Reachable s := .run (.start rfl) run
  have ok := reachable_accounted reached
  have balance (job : JobId) : s.freed job + s.live job = events.count (.submitAlloc job) := by
    have live := live_run run job
    simpa [start, State.live] using live
  have allocated (job : JobId) : events.count (.submitAlloc job) ≤ 1 := by
    have once := allocated_once run job
    simpa [start] using once
  constructor
  · rw [ok.order, List.append_assoc]
    exact List.prefix_append _ _
  · rw [ok.progress]
    exact List.prefix_append _ _
  · exact ok.once
  · exact fun event _ changed => started_next changed
  · intro job dropped started
    have once := ok.once
    rw [ok.order, List.append_assoc] at once
    exact (List.nodup_append.mp once).2.2 job started job (List.mem_append_left _ dropped) rfl
  · intro job refused
    have absent : job ∉ s.inserted := by
      rw [ok.submitted job, refused]
      simp
    rw [ok.order, List.append_assoc] at absent
    refine ⟨fun started => absent (List.mem_append_left _ started), fun dropped => ?_, ?_⟩
    · exact absent (List.mem_append_right _ (List.mem_append_left _ dropped))
    · have := balance job
      have := allocated job
      omega
  · exact reachable_freed reached
  · exact balance
  · exact allocated
  · intro closed job
    have exited := ok.joined (ok.teardown (Or.inr closed))
    have nothing := closed_queue reached closed
    have settled := reachable_unsubmitted reached (by simp [closed]) job
    have gone : s.live job = 0 := by
      rcases settled with idle | ⟨accepted, returned⟩
      · simp [State.live, idle, nothing, exited]
      · simp [State.live, returned, nothing, exited]
    have counted := balance job
    rw [gone] at counted
    exact counted

/-- One job runs, one is refused, and the scheduler is torn down. -/
def runOneRefuseOne : List Event :=
  [.submitAlloc 0, .submitCheck 0, .submitInsert 0, .submitWrite 0, .stopStore 0, .stopWrite 0,
    .submitAlloc 1, .submitCheck 1, .workerLoop, .workerDrain, .workerJobReturned 0 true,
    .workerDrain, .joinEnter, .joinReturn, .destroyEnter, .destroyPop]

theorem jobContract_runOneRefuseOne :
    JobContract runOneRefuseOne (machine.after start runOneRefuseOne) ∧
      (machine.after start runOneRefuseOne).started = [0] ∧
      (machine.after start runOneRefuseOne).freed 1 = 1 ∧
      (machine.after start runOneRefuseOne).destroy = .closed := by
  have may : machine.AllEnabled start runOneRefuseOne := by
    refine ⟨⟨rfl, rfl⟩, rfl, rfl, rfl, ⟨rfl, rfl⟩, rfl, ⟨rfl, rfl⟩, rfl, rfl, rfl, rfl, rfl,
      Or.inl rfl, ⟨rfl, rfl⟩, ⟨rfl, ?_, ?_, ?_⟩, rfl, trivial⟩
    · intro job
      match job with
      | 0 => exact Or.inr ⟨true, rfl⟩
      | 1 => exact Or.inr ⟨false, rfl⟩
      | job + 2 => exact Or.inl rfl
    · intro call
      match call with
      | 0 => exact Or.inr rfl
      | call + 1 => exact Or.inl rfl
    · exact JoinFrame.noConfusion
  exact ⟨jobContract may.run, rfl, rfl, rfl⟩

end Scheduler
end UfsrvRx
