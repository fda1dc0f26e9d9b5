import UfsrvRx.Scheduler.Accepted

namespace UfsrvRx
namespace Scheduler

/-!
# Wake-ups of the worker

The worker sleeps on the eventfd only when there is nothing to do, or when somebody
who has made work for it has not written to the eventfd yet.
-/

namespace State

/-- Somebody stands between an insert or a store to the flag and the write to the
eventfd that announces it. -/
def Signalling (s : State) : Prop :=
  (Exists fun job => s.submit job = .inserted) ∨ (Exists fun call => s.stop call = .stored) ∨
    s.destroy = .signalling

/-- No `UfsrvSchedulerStop` has been called, not even by `UfsrvSchedulerDestroy`. -/
def Unstopped (s : State) : Prop :=
  (forall call, s.stop call = .idle) ∧ s.destroy = .idle

end State

/-- What the counter of the eventfd knows about the queue and the flag. -/
structure Announced (s : State) : Prop where
  queued : s.worker = .checking ∨ s.worker = .reading -> s.queue ≠ [] ->
    0 < s.eventFd ∨ Exists fun job => s.submit job = .inserted
  stopped : s.worker = .reading -> s.isRunning = false ->
    0 < s.eventFd ∨ (Exists fun call => s.stop call = .stored) ∨ s.destroy = .signalling
  running : s.isRunning = false -> (Exists fun call => s.stop call ≠ .idle) ∨ s.destroy ≠ .idle

namespace Announced

variable {s : State}

/-- A submission that has not inserted its job, or has announced it, is not looked at. -/
theorem resubmit (ok : Announced s) (job : JobId) {frame : SubmitFrame} {fd : Nat}
    (kept : s.submit job = .inserted -> frame = .inserted ∨ 0 < fd) (more : s.eventFd ≤ fd) :
    Announced { s with submit := Function.update s.submit job frame, eventFd := fd } := by
  refine { ok with queued := ?_, stopped := ?_ }
  · intro worker queued
    rcases ok.queued worker queued with written | ⟨other, inserted⟩
    · exact Or.inl (Nat.lt_of_lt_of_le written more)
    · by_cases mine : other = job
      · subst other
        rcases kept inserted with still | written
        · exact Or.inr ⟨job, by rw [still]; exact Function.update_self ..⟩
        · exact Or.inl written
      · exact Or.inr ⟨other, (Function.update_of_ne mine ..).trans inserted⟩
  · intro worker stopped
    rcases ok.stopped worker stopped with written | others
    · exact Or.inl (Nat.lt_of_lt_of_le written more)
    · exact Or.inr others

/-- The worker moves to a point at which it does not go to sleep. -/
theorem turn (ok : Announced s) (frame : WorkerFrame) (fd : Nat)
    (busy : frame ≠ .checking ∧ frame ≠ .reading) :
    Announced { s with worker := frame, eventFd := fd } :=
  { ok with
    queued := fun worker => absurd worker (by simp [busy.1, busy.2])
    stopped := fun worker => absurd worker busy.2 }

theorem popAndRun (ok : Announced s) (final : Bool) {empty : WorkerFrame}
    (awake : empty ≠ .reading) : Announced (s.popAndRun final empty) := by
  unfold State.popAndRun
  split
  next nothing =>
    refine { ok with queued := ?_, stopped := ?_ }
    · intro _ queued
      exact absurd nothing queued
    · exact fun worker => absurd worker awake
  next job rest queued =>
    refine { ok with queued := ?_, stopped := ?_ }
    · simp
    · simp

theorem next (ok : Announced s) (accounted : Accounted s) {event : Event} (may : enabled s event) :
    Announced (Scheduler.next s event) := by
  cases event with
  | submitRefused job =>
      have idle : s.submit job = .idle := may.1
      exact ok.resubmit job (by simp [idle]) (Nat.le_refl _)
  | submitAlloc job =>
      have idle : s.submit job = .idle := may.1
      exact ok.resubmit job (by simp [idle]) (Nat.le_refl _)
  | submitCheck job =>
      have allocated : s.submit job = .allocated := may
      have kept (frame : SubmitFrame) :=
        @Announced.resubmit s ok job frame s.eventFd (by simp [allocated]) (Nat.le_refl _)
      simp only [Scheduler.next]
      split
      · exact kept .checked
      · exact { kept (.returned false) with }
  | submitInsert job =>
      have inserts : Function.update s.submit job .inserted job = .inserted := Function.update_self ..
      refine { ok with queued := ?_ }
      exact fun _ _ => Or.inr ⟨job, inserts⟩
  | submitWrite job => exact ok.resubmit job (fun _ => Or.inr (Nat.succ_pos _)) (Nat.le_succ _)
  | workerLoop =>
      simp only [Scheduler.next]
      split <;> exact ok.turn _ s.eventFd (by simp)
  | workerPop => exact ok.popAndRun false (by simp)
  | workerJobReturned job final =>
      have turned := ok.turn (if final then .draining else .looping) s.eventFd
        (by cases final <;> simp)
      exact { turned with }
  | workerCheck =>
      have checking : s.worker = .checking := may
      have queued := ok.queued (Or.inl checking)
      simp only [Scheduler.next]
      split
      next running =>
        refine { ok with queued := fun _ => queued, stopped := ?_ }
        intro _ stopped
        simp [running] at stopped
      · exact ok.turn _ s.eventFd (by simp)
  | workerRead => exact ok.turn .looping 0 (by simp)
  | workerInterrupted => exact ok.turn .looping s.eventFd (by simp)
  | workerDrain => exact ok.popAndRun true (by simp)
  | stopStore call =>
      have stored : Function.update s.stop call .stored call = .stored := Function.update_self ..
      refine { ok with stopped := ?_, running := ?_ }
      · exact fun _ _ => Or.inr (Or.inl ⟨call, stored⟩)
      · exact fun _ => Or.inl ⟨call, by simp [Scheduler.next]⟩
  | stopWrite call =>
      refine { ok with queued := ?_, stopped := ?_, running := ?_ }
      · exact fun _ _ => Or.inl (Nat.succ_pos _)
      · exact fun _ _ => Or.inl (Nat.succ_pos _)
      · exact fun _ => Or.inl ⟨call, by simp [Scheduler.next]⟩
  | joinEnter =>
      simp only [Scheduler.next]
      split
      · exact { ok with }
      · exact ok
  | joinReturn => exact { ok with }
  | destroyEnter =>
      have usable : s.destroy = .idle := may.1
      have stopped := ok.stopped
      rw [usable] at stopped
      refine { ok with stopped := ?_, running := ?_ }
      · intro worker off
        rcases stopped worker off with written | ⟨call, stored⟩ | signalling
        · exact Or.inl written
        · exact Or.inr (Or.inl ⟨call, stored⟩)
        · cases signalling
      · intro _
        right
        simp only [Scheduler.next]
        split <;> simp
  | destroyStop =>
      refine { ok with stopped := ?_, running := ?_ }
      · exact fun _ _ => Or.inr (Or.inr rfl)
      · exact fun _ => Or.inr (by simp [Scheduler.next])
  | destroyWrite =>
      refine { ok with queued := ?_, stopped := ?_, running := ?_ }
      · exact fun _ _ => Or.inl (Nat.succ_pos _)
      · exact fun _ _ => Or.inl (Nat.succ_pos _)
      · exact fun _ => Or.inr (by simp [Scheduler.next])
  | destroyJoined =>
      have exited := accounted.joined may.2
      refine { ok with stopped := ?_, running := ?_ }
      · exact fun worker => absurd (exited.symm.trans worker) (by simp)
      · exact fun _ => Or.inr (by simp [Scheduler.next])
  | destroyPop =>
      have exited := accounted.joined (accounted.teardown (Or.inl may))
      simp only [Scheduler.next]
      split
      · refine { ok with stopped := ?_, running := ?_ }
        · exact fun worker => absurd (exited.symm.trans worker) (by simp)
        · exact fun _ => Or.inr (by simp)
      · refine { ok with queued := ?_ }
        exact fun worker => absurd worker (by simp [exited])

end Announced

theorem reachable_announced {s : State} (reached : machine.Reachable s) : Announced s := by
  refine reached.invariant _ ?_ ?_
  · intro s initial
    rw [show s = start from initial]
    constructor <;> simp [start]
  · intro s event reached ok may
    exact ok.next (reachable_accounted reached) may

/-- A job that is in the books when the worker exits has run. -/
theorem finished_next {s : State} (accounted : Accounted s) {job : JobId} {event : Event}
    (may : enabled s event)
    (ok : job ∈ s.inserted ∧ (s.worker = .exited -> job ∈ s.finished)) :
    job ∈ (next s event).inserted ∧
      ((next s event).worker = .exited -> job ∈ (next s event).finished) := by
  have inserted : job ∈ (next s event).inserted := by
    cases event with
    | submitInsert other => exact List.mem_append_left _ ok.1
    | submitCheck other =>
        simp only [next]
        split <;> exact ok.1
    | workerPop =>
        simp only [next, State.popAndRun]
        split <;> exact ok.1
    | workerDrain =>
        simp only [next, State.popAndRun]
        split <;> exact ok.1
    | joinEnter =>
        simp only [next]
        split <;> exact ok.1
    | destroyPop =>
        simp only [next]
        split <;> exact ok.1
    | _ => exact ok.1
  refine ⟨inserted, ?_⟩
  intro exits
  by_cases gone : s.worker = .exited
  · have kept : (next s event).finished = s.finished := by
      cases event with
      | submitCheck other =>
          simp only [next]
          split <;> rfl
      | workerPop => exact absurd (gone.symm.trans may) (by simp)
      | workerDrain => exact absurd (gone.symm.trans may) (by simp)
      | workerJobReturned other final => exact absurd (gone.symm.trans may) (by simp)
      | joinEnter =>
          simp only [next]
          split <;> rfl
      | destroyPop =>
          simp only [next]
          split <;> rfl
      | _ => rfl
    rw [kept]
    exact ok.2 gone
  · rcases exit_next may gone exits with ⟨rfl, nothing⟩
    have draining : s.worker = .draining := may
    have whole : s.dropped = [] := by
      by_contra some
      exact accounted.unjoined gone (accounted.teardown (accounted.kept some))
    have order := accounted.order
    have progress := accounted.progress
    rw [whole, nothing, List.append_nil, List.append_nil] at order
    rw [draining] at progress
    have finished : s.inserted = s.finished := by
      rw [order, progress]
      exact List.append_nil _
    have unchanged : (next s .workerDrain).finished = s.finished := by
      simp [next, State.popAndRun, nothing]
    rw [unchanged, <- finished]
    exact ok.1

/-- The worker blocks only when there is nothing to do or a write is on its way, and a
job that was accepted before anybody stopped the scheduler has run when the worker exits. -/
theorem noLostWakeup {s : State} (reached : machine.Reachable s) :
    (s.worker = .reading -> s.eventFd = 0 ->
      (s.queue = [] ∧ s.isRunning = true) ∨ s.Signalling) ∧
    forall job, s.submit job = .returned true -> s.Unstopped ->
      forall events after, machine.Run s events after -> after.worker = .exited ->
        after.finished.count job = 1 := by
  have ok := reachable_announced reached
  have accounted := reachable_accounted reached
  constructor
  · intro reading zero
    by_cases queued : s.queue = []
    · by_cases running : s.isRunning = true
      · exact Or.inl ⟨queued, running⟩
      · rcases ok.stopped reading (by simpa using running) with written | stopping
        · omega
        · exact Or.inr (Or.inr stopping)
    · rcases ok.queued (Or.inr reading) queued with written | inserting
      · omega
      · exact Or.inr (Or.inl inserting)
  · intro job accepted unstopped events after run exited
    have running : s.isRunning = true := by
      by_contra off
      rcases ok.running (by simpa using off) with ⟨call, stopped⟩ | torn
      · exact stopped (unstopped.1 call)
      · exact torn unstopped.2
    have alive : s.worker ≠ .exited := by
      intro gone
      have left := accounted.leaving (by rw [gone]; rfl)
      simp [running] at left
    have inserted : job ∈ s.inserted := (accounted.submitted job).mpr (Or.inr accepted)
    have kept := run.stable (fun s => job ∈ s.inserted ∧ (s.worker = .exited -> job ∈ s.finished))
      (fun s event reached ok may => finished_next (reachable_accounted reached) may ok) reached
      ⟨inserted, fun gone => absurd gone alive⟩
    have finished := kept.2 exited
    have later := reachable_accounted (reached.run run)
    have once := later.started_nodup
    rw [later.progress] at once
    exact List.count_eq_one_of_mem once.of_append_left finished

/-- Job 0 is accepted while nobody has called `Stop`. -/
def acceptOne : List Event :=
  [.submitAlloc 0, .submitCheck 0, .submitInsert 0, .submitWrite 0]

def stopAndExit : List Event :=
  [.stopStore 0, .stopWrite 0, .workerLoop, .workerDrain, .workerJobReturned 0 true, .workerDrain]

theorem noLostWakeup_stopAndExit :
    (machine.after start acceptOne).submit 0 = .returned true ∧
      (machine.after (machine.after start acceptOne) stopAndExit).finished.count 0 = 1 := by
  have accepting : machine.AllEnabled start acceptOne := by
    repeat' first | exact trivial | exact rfl | apply And.intro
  have stopping : machine.AllEnabled (machine.after start acceptOne) stopAndExit := by
    repeat' first | exact trivial | exact rfl | apply And.intro
  exact ⟨rfl, (noLostWakeup (.run (.start rfl) accepting.run)).2 0 rfl ⟨fun _ => rfl, rfl⟩ _ _
    stopping.run rfl⟩

end Scheduler
end UfsrvRx
