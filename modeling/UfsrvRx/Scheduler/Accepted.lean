import UfsrvRx.Scheduler.Worker
import Mathlib.Data.List.Nodup

namespace UfsrvRx
namespace Scheduler

/-!
# Accepted jobs

`Submit` looks at the flag and inserts in two steps.  A submitter that has seen
the flag set may insert after the worker drained the queue and left, and then
answers true for a job that nobody will run.  The first part shows that this is
the only way to lose an accepted job; the last part is a run in which it happens.
-/

/-- A job whose `Submit` answered true has been executed exactly once when
`Join` has returned; no job is executed twice; and none whose `Submit` answered
false is executed at all. -/
def AcceptedJobsRun (s : State) : Prop :=
  (s.join = .returned -> forall job, s.submit job = .returned true ->
    s.started.count job = 1 ∧ s.finished.count job = 1) ∧
  (forall job, s.started.count job ≤ 1) ∧
  (forall job, s.submit job = .returned false -> job ∉ s.started)

/-- When the final drain finds the queue empty, no submitter stands between its
look at the flag and its insert. -/
def Covered (s : State) : Event -> Prop
  | .workerDrain => s.queue = [] -> forall job, s.submit job ≠ .checked
  | _ => True

namespace Accounted

variable {s : State}

theorem started_inserted (ok : Accounted s) {job : JobId} (started : job ∈ s.started) :
    job ∈ s.inserted := by
  rw [ok.order]
  exact List.mem_append_left _ (List.mem_append_left _ started)

theorem started_nodup (ok : Accounted s) : s.started.Nodup := by
  have once := ok.once
  rw [ok.order, List.append_assoc] at once
  exact (List.nodup_append.mp once).1

theorem refused_not_started (ok : Accounted s) {job : JobId}
    (refused : s.submit job = .returned false) : job ∉ s.started := by
  intro started
  have submitted := (ok.submitted job).mp (ok.started_inserted started)
  simp [refused] at submitted

end Accounted

/-- Nothing is left behind by the worker, and nothing can arrive any more. -/
structure LeftNothing (s : State) : Prop where
  queue : s.queue = []
  dropped : s.dropped = []
  checked : forall job, s.submit job ≠ .checked

/-- After an uncontested exit every submission finds the flag cleared. -/
theorem leftNothing_next {s : State} {event : Event} (ok : Accounted s)
    (exited : s.worker = .exited) (left : LeftNothing s) (may : enabled s event) :
    (next s event).worker = .exited ∧ LeftNothing (next s event) := by
  have stopped : s.isRunning = false := ok.leaving (by rw [exited]; rfl)
  have resubmit (job : JobId) {frame : SubmitFrame} (fine : frame ≠ .checked) (other : JobId) :
      Function.update s.submit job frame other ≠ .checked := by
    have := left.checked other
    grind
  cases event with
  | submitRefused job => exact ⟨exited, { left with checked := resubmit job (by simp) }⟩
  | submitAlloc job => exact ⟨exited, { left with checked := resubmit job (by simp) }⟩
  | submitCheck job =>
      simp only [next, stopped]
      exact ⟨exited, { left with checked := resubmit job (by simp) }⟩
  | submitInsert job => exact absurd may (left.checked job)
  | submitWrite job => exact ⟨exited, { left with checked := resubmit job (by simp) }⟩
  | workerLoop => exact absurd (exited.symm.trans may) (by simp)
  | workerPop => exact absurd (exited.symm.trans may) (by simp)
  | workerJobReturned job final => exact absurd (exited.symm.trans may) (by simp)
  | workerCheck => exact absurd (exited.symm.trans may) (by simp)
  | workerRead => exact absurd (exited.symm.trans may.1) (by simp)
  | workerInterrupted => exact absurd (exited.symm.trans may) (by simp)
  | workerDrain => exact absurd (exited.symm.trans may) (by simp)
  | stopStore call => exact ⟨exited, { left with }⟩
  | stopWrite call => exact ⟨exited, { left with }⟩
  | joinEnter =>
      simp only [next]
      split
      · exact ⟨exited, { left with }⟩
      · exact ⟨exited, left⟩
  | joinReturn => exact ⟨exited, { left with }⟩
  | destroyEnter => exact ⟨exited, { left with }⟩
  | destroyStop => exact ⟨exited, { left with }⟩
  | destroyWrite => exact ⟨exited, { left with }⟩
  | destroyJoined => exact ⟨exited, { left with }⟩
  | destroyPop =>
      simp only [next, left.queue]
      exact ⟨exited, { left with queue := rfl }⟩

/-- Only the final drain lets the worker leave. -/
theorem exit_next {s : State} {event : Event} (may : enabled s event)
    (alive : s.worker ≠ .exited) (exits : (next s event).worker = .exited) :
    event = .workerDrain ∧ s.queue = [] := by
  cases event with
  | workerDrain =>
      refine ⟨rfl, ?_⟩
      simp only [next, State.popAndRun] at exits
      split at exits
      · assumption
      · cases exits
  | workerPop =>
      simp only [next, State.popAndRun] at exits
      split at exits <;> cases exits
  | submitCheck job =>
      simp only [next] at exits
      split at exits <;> exact absurd exits alive
  | workerLoop =>
      simp only [next] at exits
      split at exits <;> cases exits
  | workerCheck =>
      simp only [next] at exits
      split at exits <;> cases exits
  | workerJobReturned job final =>
      simp only [next] at exits
      split at exits <;> cases exits
  | joinEnter =>
      simp only [next] at exits
      split at exits <;> exact absurd exits alive
  | destroyPop =>
      simp only [next] at exits
      split at exits <;> exact absurd exits alive
  | workerRead => cases exits
  | workerInterrupted => cases exits
  | submitRefused job => exact absurd exits alive
  | submitAlloc job => exact absurd exits alive
  | submitInsert job => exact absurd exits alive
  | submitWrite job => exact absurd exits alive
  | stopStore call => exact absurd exits alive
  | stopWrite call => exact absurd exits alive
  | joinReturn => exact absurd exits alive
  | destroyEnter => exact absurd exits alive
  | destroyStop => exact absurd exits alive
  | destroyWrite => exact absurd exits alive
  | destroyJoined => exact absurd exits alive

theorem covered_leftNothing {s : State} (reached : (machine.restrict Covered).Reachable s)
    (exited : s.worker = .exited) : LeftNothing s := by
  induction reached with
  | start initial =>
      rw [show _ = start from initial] at exited
      cases exited
  | @step s event reached may inductionHypothesis =>
      have ok := reachable_accounted reached.of_restrict
      by_cases gone : s.worker = .exited
      · exact (leftNothing_next ok gone (inductionHypothesis gone) may.1).2
      · have exits := exit_next may.1 gone exited
        rcases exits with ⟨rfl, nothing⟩
        have draining : s.worker = .draining := may.1
        have whole : s.dropped = [] := by
          by_contra some
          exact ok.unjoined gone (ok.teardown (ok.kept some))
        change LeftNothing (s.popAndRun true .exited)
        simp only [State.popAndRun, nothing]
        exact ⟨rfl, whole, may.2 nothing⟩

/-- A submitter caught between its two steps still answers true. -/
theorem lost_after_exit {s : State} (reached : machine.Reachable s)
    (may : enabled s .workerDrain) (nothing : s.queue = []) {job : JobId}
    (checked : s.submit job = .checked) :
    Exists fun events => Exists fun after =>
      machine.Run (next s .workerDrain) events after ∧ ¬ AcceptedJobsRun after := by
  have ok := reachable_accounted reached
  have draining : s.worker = .draining := may
  have usable : s.destroy = .idle := by
    by_contra torn
    have settled := reachable_unsubmitted reached torn job
    simp [checked] at settled
  have never : job ∉ s.started := by
    intro started
    have submitted := (ok.submitted job).mp (ok.started_inserted started)
    simp [checked] at submitted
  have lost {after : State} (joined : after.join = .returned)
      (accepted : after.submit job = .returned true) (same : after.started = s.started) :
      ¬ AcceptedJobsRun after := by
    intro run
    have once := (run.1 joined job accepted).1
    rw [same, List.count_eq_zero_of_not_mem never] at once
    cases once
  have exit : next s .workerDrain = { s with worker := .exited } := by
    simp [next, State.popAndRun, nothing]
  have entered : s.join = .idle ∨ s.join = .waiting := by
    have unjoined := ok.unjoined (by simp [draining])
    cases frame : s.join <;> simp_all
  rw [exit]
  rcases entered with frame | frame
  · have unjoined : s.isJoined = false := by
      have joining := ok.joining
      simpa [frame] using joining
    have may : machine.AllEnabled { s with worker := .exited }
        [.submitInsert job, .submitWrite job, .joinEnter, .joinReturn] := by
      refine ⟨checked, ?_, Or.inl usable, ⟨?_, ?_⟩, trivial⟩ <;>
        simp [machine, enabled, next, State.insert, ok.begun, unjoined]
    refine ⟨_, _, may.run, lost ?_ ?_ ?_⟩ <;>
      simp [Transition.Machine.after, machine, next, State.insert, ok.begun, unjoined]
  · have may : machine.AllEnabled { s with worker := .exited }
        [.submitInsert job, .submitWrite job, .joinReturn] := by
      refine ⟨checked, ?_, ⟨frame, rfl⟩, trivial⟩
      simp [machine, enabled, next, State.insert]
    refine ⟨_, _, may.run, lost rfl ?_ rfl⟩
    simp [Transition.Machine.after, machine, next, State.insert]

/-- Every accepted job is run in every run in which the final drain never
overtakes a submitter, and a drain that does overtake one can lose its job. -/
theorem acceptedJobsRun_of_covered (s : State) :
    ((machine.restrict Covered).Reachable s -> AcceptedJobsRun s) ∧
    (forall job, machine.Reachable s -> enabled s .workerDrain -> s.queue = [] ->
      s.submit job = .checked ->
      Exists fun events => Exists fun after =>
        machine.Run (next s .workerDrain) events after ∧ ¬ AcceptedJobsRun after) := by
  constructor
  · intro reached
    have ok := reachable_accounted reached.of_restrict
    refine ⟨?_, ?_, ?_⟩
    · intro joined job accepted
      have exited := ok.joined joined
      have left := covered_leftNothing reached exited
      have order := ok.order
      rw [left.dropped, left.queue, List.append_nil, List.append_nil] at order
      have progress := ok.progress
      rw [exited] at progress
      have started : job ∈ s.started := by
        rw [<- order]
        exact (ok.submitted job).mpr (Or.inr accepted)
      have once := List.nodup_iff_count_eq_one.mp ok.started_nodup job started
      refine ⟨once, ?_⟩
      rw [progress] at once
      simpa using once
    · intro job
      exact List.nodup_iff_count_le_one.mp ok.started_nodup job
    · intro job refused
      exact ok.refused_not_started refused
  · intro job reached may nothing checked
    exact lost_after_exit reached may nothing checked

/-- The submitter of job 0 has seen the flag set when `Stop` clears it; the worker
leaves before the insert. -/
def insertAfterExit : List Event :=
  [.submitAlloc 0, .submitCheck 0, .stopStore 0, .stopWrite 0, .workerLoop, .workerDrain,
    .submitInsert 0, .submitWrite 0, .joinEnter, .joinReturn]

theorem acceptedJobsRun_fails : ¬ forall s, machine.Reachable s -> AcceptedJobsRun s := by
  intro run
  have may : machine.AllEnabled start insertAfterExit := by
    repeat' first | exact trivial | exact rfl | exact Or.inl rfl | apply And.intro
  have executed := (run _ (.run (.start rfl) may.run)).1 rfl 0 rfl
  cases executed.1

/-- The same calls with the insert before the drain. -/
def insertBeforeExit : List Event :=
  [.submitAlloc 0, .submitCheck 0, .submitInsert 0, .submitWrite 0, .stopStore 0, .stopWrite 0,
    .workerLoop, .workerDrain, .workerJobReturned 0 true, .workerDrain, .joinEnter, .joinReturn]

theorem acceptedJobsRun_insertBeforeExit :
    (machine.after start insertBeforeExit).submit 0 = .returned true ∧
      AcceptedJobsRun (machine.after start insertBeforeExit) := by
  have may : (machine.restrict Covered).AllEnabled start insertBeforeExit := by
    repeat' first | exact trivial | exact rfl | exact Or.inl rfl | apply And.intro
    · intro queued
      cases queued
    · intro _ job
      cases job with
      | zero => exact SubmitFrame.noConfusion
      | succ job => exact SubmitFrame.noConfusion
  exact ⟨rfl, (acceptedJobsRun_of_covered _).1 (.run (.start rfl) may.run)⟩

end Scheduler
end UfsrvRx
