import UfsrvRx.Waiter.Invariant

namespace UfsrvRx
namespace Waiter

open Transition

/-!
# Where a coroutine is

A wait is pushed, registered and only then parked, so whoever wakes it may do so while its
coroutine still runs.  The resume job then waits in the queue until the coroutine has left its
worker.  There is never more than one job for a coroutine, and no job is taken for one that runs.
-/

/-- The coroutine that a job enters. -/
def Job.coroutine : Job -> CoroutineId
  | spawn c | resume c _ => c

/-- The wait that a coroutine is in. -/
def Status.wait : Status -> Option WaitId
  | running wait => wait
  | suspended wait => some wait
  | absent | spawned | exited => none

namespace State

variable (s : State)

/-- How many jobs of the queue enter the coroutine. -/
def jobs (S : SchedulerId) (c : CoroutineId) : Nat :=
  (s.schedulers S).queue.countP fun job => job.coroutine = c

/-- The coroutine was spawned and not entered yet, or it was woken and its wait has not gone on. -/
def Called (c : CoroutineId) : Prop :=
  (s.coroutines c).status = .spawned ∨
    Exists fun w => (s.waits w).Pending c (s.coroutines c).scheduler

/-- The waiter is unclaimed, or who has claimed it is about to wake the wait. -/
def Wakeable (w : WaitId) : Prop :=
  (s.waits w).claimed = false ∨ (s.waits w).callback = .waking ∨
    Exists fun call => Exists fun future => Exists fun rest =>
      s.complete call = .waking future w rest

/-- The coroutine runs on the worker of its scheduler, and is called by one job in the queue of
that scheduler, or by none.  A worker that takes a job for it finds it nowhere else.  When nothing
is left to do for its idle worker, it still has its waiter. -/
structure Placed (c : CoroutineId) : Prop where
  worker : forall S, (s.schedulers S).worker = some c ↔
    (s.coroutines c).scheduler = S ∧ (s.coroutines c).status.isRunning = true
  called : s.Called c -> s.jobs (s.coroutines c).scheduler c = 1
  uncalled : forall S, (s.coroutines c).scheduler = S -> ¬s.Called c -> s.jobs S c = 0
  elsewhere : forall S, (s.coroutines c).scheduler ≠ S -> s.jobs S c = 0
  waits : forall S w, (s.waits w).Pending c S -> (s.coroutines c).scheduler = S ∧
    (s.coroutines c).status.wait = some w
  entered : forall S job rest, s.schedulers S = ⟨job :: rest, none⟩ -> job.coroutine = c ->
    (job = .spawn c ∧ (s.coroutines c).status = .spawned ∨ Exists fun w =>
      job = .resume c w ∧ (s.coroutines c).status = .suspended w) ∧
    (rest.countP fun job => job.coroutine = c) = 0 ∧
    (forall T, T ≠ S -> s.jobs T c = 0) ∧ forall T, (s.schedulers T).worker ≠ some c
  asleep : forall w, s.schedulers (s.coroutines c).scheduler = ⟨[], none⟩ ->
    (s.coroutines c).status = .suspended w -> s.Wakeable w

end State

section

variable {s : State} {c : CoroutineId}

/-- A wait that was woken and has not gone on is the one that its coroutine is in. -/
theorem wait_of_pending (seated : Seated s) {S : SchedulerId} {w : WaitId}
    (pending : (s.waits w).Pending c S) :
    (s.coroutines c).scheduler = S ∧ (s.coroutines c).status.begun = true ∧
      (s.coroutines c).status.wait = some w := by
  have seat := seated.seat w c S pending.1
  refine ⟨seat.2.1, seat.2.2.1, ?_⟩
  cases here : (s.waits w).frame.seat with
  | parked =>
      rw [seat.2.2.2.1 here]
      rfl
  | active =>
      rw [seat.2.2.2.2 here]
      rfl
  | outside => exact absurd here seat.1
  | ended =>
      have unwoken := pending.2.2
      cases frame : (s.waits w).frame <;> simp_all [WaitFrame.seat, WaitFrame.woken]

/-- The only job for the coroutine is this one. -/
theorem jobs_eq_count {S : SchedulerId} {job : Job} (mine : job.coroutine = c)
    (only : forall other, other ∈ (s.schedulers S).queue -> other.coroutine = c -> other = job) :
    s.jobs S c = (s.schedulers S).queue.count job := by
  refine List.countP_congr ?_
  intro other mem
  simp only [decide_eq_true_eq, beq_iff_eq]
  refine ⟨only other mem, ?_⟩
  rintro rfl
  exact mine

theorem jobs_eq_zero {S : SchedulerId}
    (none : forall job, job ∈ (s.schedulers S).queue -> job.coroutine ≠ c) : s.jobs S c = 0 := by
  refine List.countP_eq_zero.mpr ?_
  intro job mem
  simpa using none job mem

/-- A job for a coroutine that was spawned and not entered is that of the spawn, and any other one
is for the wait that it is in. -/
theorem job_of_mem (seated : Seated s) (queued : Queued s) {S : SchedulerId} {job : Job}
    (mem : job ∈ (s.schedulers S).queue) (mine : job.coroutine = c) :
    job = .spawn c ∧ s.coroutines c = ⟨S, .spawned⟩ ∨
      Exists fun w => job = .resume c w ∧ (s.waits w).Pending c S := by
  cases job with
  | spawn d =>
      have same : d = c := mine
      subst same
      have counted := seated.spawns S d
      refine .inl ⟨rfl, ?_⟩
      by_contra other
      rw [if_neg other] at counted
      exact List.count_eq_zero.mp counted mem
  | resume d w =>
      have same : d = c := mine
      subst same
      have counted := queued S d w
      refine .inr ⟨w, rfl, ?_⟩
      by_contra other
      rw [if_neg other] at counted
      exact List.count_eq_zero.mp counted mem

theorem jobs_called (seated : Seated s) (queued : Queued s) (called : s.Called c) :
    s.jobs (s.coroutines c).scheduler c = 1 := by
  rcases called with spawned | ⟨w, pending⟩
  · have entry : s.coroutines c = ⟨(s.coroutines c).scheduler, .spawned⟩ := by
      rw [<- spawned]
    have counted := seated.spawns (s.coroutines c).scheduler c
    rw [if_pos entry] at counted
    refine (jobs_eq_count (c := c) rfl ?_).trans counted
    intro job mem mine
    rcases job_of_mem seated queued mem mine with ⟨same, _⟩ | ⟨w, _, pending⟩
    · exact same
    · have begun := (wait_of_pending seated pending).2.1
      rw [spawned] at begun
      cases begun
  · have here := wait_of_pending seated pending
    have counted := queued (s.coroutines c).scheduler c w
    rw [if_pos pending] at counted
    refine (jobs_eq_count (c := c) rfl ?_).trans counted
    intro job mem mine
    rcases job_of_mem seated queued mem mine with ⟨_, entry⟩ | ⟨v, same, other⟩
    · rw [entry] at here
      cases here.2.1
    · have there := wait_of_pending seated other
      cases here.2.2.symm.trans there.2.2
      exact same

theorem jobs_uncalled (seated : Seated s) (queued : Queued s) {S : SchedulerId}
    (apart : (s.coroutines c).scheduler ≠ S ∨ ¬s.Called c) : s.jobs S c = 0 := by
  refine jobs_eq_zero ?_
  intro job mem mine
  have called : (s.coroutines c).scheduler = S ∧ s.Called c := by
    rcases job_of_mem seated queued mem mine with ⟨_, entry⟩ | ⟨w, _, pending⟩
    · rw [State.Called, entry]
      exact ⟨rfl, .inl rfl⟩
    · have home := (wait_of_pending seated pending).1
      exact ⟨home, .inr ⟨w, home ▸ pending⟩⟩
  rcases apart with away | uncalled
  · exact away called.1
  · exact uncalled called.2

/-- A wait that no job was submitted for still has its waiter. -/
theorem wakeable_of_unwoken {spot : WaitId -> Spot} (noded : Noded s spot) {w : WaitId}
    (unwoken : (s.waits w).wakes = 0) : s.Wakeable w := by
  have claim := (noded.nodes w).claim
  rw [unwoken] at claim
  by_cases unclaimed : (s.waits w).claimed = false
  · exact .inl unclaimed
  by_cases waking : (s.waits w).callback = .waking
  · exact .inr (.inl waking)
  have drained : (spot w).wakes = 1 := by
    rw [if_neg waking, if_pos (by simpa using unclaimed)] at claim
    omega
  cases place : spot w with
  | waking who =>
      have running := (noded.drains.running who w).mpr (by rw [place]; rfl)
      refine .inr (.inr ?_)
      cases who with
      | completer call =>
          simp only [State.segment] at running
          cases frame : s.complete call with
          | waking future wait rest =>
              rw [frame] at running
              cases running
              exact ⟨call, future, rest, frame⟩
          | _ => simp [frame, CompleteFrame.segment, Segment.none] at running
      | releaser future =>
          simp only [State.segment] at running
          cases frame : (s.futures future).release <;>
            simp [frame, ReleaseFrame.segment, Segment.none] at running
  | _ =>
      rw [place] at drained
      cases drained

end

/-- However the steps of waits, completions, cancellations and workers come, a coroutine is called
by one job at most, and is entered only when it is on no worker and nothing else calls it. -/
theorem coroutinePlaced {s : State} (reached : machine.Reachable s) (c : CoroutineId) :
    s.Placed c := by
  have seated := reachable_seated reached
  rcases reachable_noded reached with ⟨queued, spot, noded⟩
  have counted {S : SchedulerId} (busy : s.jobs S c ≠ 0) :
      (s.coroutines c).scheduler = S ∧ s.Called c := by
    by_contra apart
    refine busy (jobs_uncalled seated queued ?_)
    exact not_and_or.mp apart
  refine ⟨fun S => seated.worker S c, jobs_called seated queued, ?_, ?_, ?_, ?_, ?_⟩
  · exact fun S _ uncalled => jobs_uncalled seated queued (.inr uncalled)
  · exact fun S away => jobs_uncalled seated queued (.inl away)
  · intro S w pending
    have here := wait_of_pending seated pending
    exact ⟨here.1, here.2.2⟩
  · intro S job rest takes mine
    have split : s.jobs S c = (rest.countP fun job => job.coroutine = c) + 1 := by
      simp [State.jobs, takes, mine]
    have home := counted (by rw [split]; exact Nat.succ_ne_zero _)
    have one := jobs_called seated queued home.2
    rw [home.1, split] at one
    have enters : job = .spawn c ∧ (s.coroutines c).status = .spawned ∨ Exists fun w =>
        job = .resume c w ∧ (s.coroutines c).status = .suspended w := by
      have mem : job ∈ (s.schedulers S).queue := by
        rw [takes]
        exact List.mem_cons_self
      rcases job_of_mem seated queued mem mine with ⟨same, entry⟩ | ⟨w, same, _⟩
      · refine .inl ⟨same, ?_⟩
        rw [entry]
      · subst same
        exact .inr ⟨w, rfl, (queued.head seated takes).2⟩
    refine ⟨enters, by omega, ?_, ?_⟩
    · intro T apart
      refine jobs_uncalled seated queued (.inl ?_)
      exact fun same => apart (same.symm.trans home.1)
    · intro T works
      have running := ((seated.worker T c).mp works).2
      rcases enters with ⟨_, status⟩ | ⟨w, _, status⟩ <;> simp [status, Status.isRunning] at running
  · intro w empty suspended
    have seat := seated.suspended c w suspended
    refine wakeable_of_unwoken noded ?_
    have zero : s.jobs (s.coroutines c).scheduler c = 0 := by simp [State.jobs, empty]
    have fresh : ¬(s.waits w).Pending c (s.coroutines c).scheduler := by
      intro pending
      have one := jobs_called seated queued (.inr ⟨w, pending⟩)
      omega
    have parked := WaitFrame.seat_parked.mp seat.2
    have once : (s.waits w).wakes ≠ 1 := by
      intro once
      exact fresh ⟨seat.1, once, by rw [parked]; rfl⟩
    have claim := (noded.nodes w).claim
    have least : (s.waits w).wakes ≤ 1 := by
      split at claim <;> split at claim <;> omega
    omega

/-- A future is completed after the waiter of a coroutine was pushed, and before it has yielded. -/
def wokenEarly : List Event :=
  [.spawn 0 0, .workerSpawn 0 0 [], .waitStart 0 (.coroutine 0 0) 0 none, .waitCheckState 0,
    .waitPush 0, .completeEnter 0 0 (.ofError 5), .completeExchange 0 0 (.ofError 5),
    .completeWrite 0 0 (.ofError 5), .completeReady 0 0, .completeClose 0 0,
    .completeClaim 0 0 0 [], .completeWake 0 0 0 []]

theorem coroutinePlaced_wokenEarly :
    (machine.after start wokenEarly).Placed 0 ∧ (machine.after start wokenEarly).jobs 0 0 = 1 ∧
      ((machine.after start wokenEarly).schedulers 0).worker = some 0 := by
  have may : machine.AllEnabled start wokenEarly := by
    refine ⟨rfl, rfl, ⟨rfl, rfl, ?_, ?_⟩, rfl, rfl, ⟨rfl, rfl⟩, rfl, rfl, rfl, rfl, rfl, rfl, trivial⟩
    · intro coroutine scheduler same
      cases same
      rfl
    · intro t same
      cases same
  exact ⟨coroutinePlaced (.run (.start rfl) may.run) 0, rfl, rfl⟩

end Waiter
end UfsrvRx
